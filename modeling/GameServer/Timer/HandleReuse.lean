import GameServer.Timer.KeyedTimers

/-!
# When a handle comes round again

`_GenerateHandleID` goes on from the last handle and skips those that are in
the context map.  A removed or replaced timer is not in that map, but its node
stays in the wheel for up to `2^31 - 1` ticks and carries the handle.  After
some four thousand million calls of `AddTimer` the counter has come round, and
the handle of such a node is given to a new timer; when the node is dispatched,
it fires that timer and passes a context that has been deleted.

`generateHandleID_eq_some_iff` describes the search by the sequence of handles
it tries.  `handles_fresh_iff` gives the exact condition for a run of any
length: whenever a timer is added, each unused handle that a pending node still
carries has another unused one before it in the order of the search.
-/

namespace GameServer
namespace Gametimer

open Lib

/-! ## The order of the search -/

/-- The `k`-th handle that the search looks at after `dwCounter`; among them is
the reserved `UINT32_MAX`, where the search turns round. -/
def probe (dwCounter : UInt32) (k : Nat) : UInt32 :=
  UInt32.ofNat ((dwCounter.toNat + k) % (2 ^ 32 - 1) + 1)

/-- A handle that the search would take. -/
def Unused (contextMap : UInt32 → Option Address) (handle : UInt32) : Prop :=
  contextMap handle = none ∧ handle < uint32Max

/-- `other` is looked at before `handle`. -/
def ComesBefore (dwCounter other handle : UInt32) : Prop :=
  ∃ i j, i < j ∧ j < 2 ^ 32 - 1 ∧ probe dwCounter i = other ∧
    probe dwCounter j = handle

section Search

variable {contextMap : UInt32 → Option Address} {dwCounter : UInt32}

theorem toNat_probe (k : Nat) :
    (probe dwCounter k).toNat = (dwCounter.toNat + k) % (2 ^ 32 - 1) + 1 := by
  rw [probe, UInt32.toNat_ofNat', Nat.mod_eq_of_lt]
  omega

theorem toNat_uint32Max : uint32Max.toNat = 2 ^ 32 - 1 := rfl

/-- The first handle that is looked at. -/
theorem probe_zero (hcounter : dwCounter < uint32Max) : probe dwCounter 0 = dwCounter + 1 := by
  rw [UInt32.lt_iff_toNat_lt, toNat_uint32Max] at hcounter
  rw [← UInt32.toNat_inj, toNat_probe, UInt32.toNat_add]
  show (dwCounter.toNat + 0) % (2 ^ 32 - 1) + 1 = (dwCounter.toNat + 1) % 2 ^ 32
  omega

/-- One round of the loop. -/
theorem probe_succ (k : Nat) :
    (if probe dwCounter k ≥ uint32Max then 0 else probe dwCounter k) + 1 =
      probe dwCounter (k + 1) := by
  have hprobe : (probe dwCounter k).toNat = _ := toNat_probe k
  rw [← UInt32.toNat_inj, toNat_probe, UInt32.toNat_add]
  split_ifs with hmax
  · rw [ge_iff_le, UInt32.le_iff_toNat_le, toNat_uint32Max] at hmax
    show (0 + 1) % 2 ^ 32 = _
    omega
  · rw [ge_iff_le, UInt32.le_iff_toNat_le, toNat_uint32Max] at hmax
    show ((probe dwCounter k).toNat + 1) % 2 ^ 32 = _
    omega

/-- Within one turn no handle is looked at twice. -/
theorem probe_injective {i j : Nat} (hi : i < 2 ^ 32 - 1) (hj : j < 2 ^ 32 - 1)
    (h : probe dwCounter i = probe dwCounter j) : i = j := by
  have hnat := congrArg UInt32.toNat h
  rw [toNat_probe, toNat_probe] at hnat
  omega

/-- Every handle but 0 is looked at in one turn. -/
theorem exists_probe (dwCounter : UInt32) {handle : UInt32} (hpos : handle ≠ 0) :
    ∃ j, j < 2 ^ 32 - 1 ∧ probe dwCounter j = handle := by
  have hne : handle.toNat ≠ 0 := fun h => hpos (UInt32.toNat_inj.mp h)
  have hlt := handle.toNat_lt
  refine ⟨(handle.toNat + (2 ^ 32 - 1) * 2 - 1 - dwCounter.toNat) %
    (2 ^ 32 - 1), Nat.mod_lt _ (by decide), ?_⟩
  have hcounter := dwCounter.toNat_lt
  rw [← UInt32.toNat_inj, toNat_probe]
  omega

/-- The loop finds the first handle that it can take. -/
theorem generateHandleLoop_eq_some_iff {rounds k : Nat} {handle : UInt32} :
    generateHandleLoop contextMap rounds (probe dwCounter k) = some handle ↔
      ∃ j, j < rounds ∧ probe dwCounter (k + j) = handle ∧ Unused contextMap handle ∧
        ∀ i, i < j → ¬ Unused contextMap (probe dwCounter (k + i)) := by
  induction rounds generalizing k with
  | zero =>
    constructor
    · intro h
      cases h
    · rintro ⟨j, hj, -⟩
      exact absurd hj (Nat.not_lt_zero j)
  | succ rounds ih =>
    have hbusy : ((contextMap (probe dwCounter k)).isSome ∨ probe dwCounter k ≥ uint32Max) ↔
          ¬ Unused contextMap (probe dwCounter k) := by
      rw [Unused, not_and_or, Option.isSome_iff_ne_none, UInt32.not_lt]
    rw [generateHandleLoop]
    by_cases hunused : Unused contextMap (probe dwCounter k)
    · rw [if_neg (fun h => hbusy.mp h hunused), Option.some.injEq]
      constructor
      · rintro rfl
        exact ⟨0, Nat.succ_pos _, rfl, hunused, fun i hi => absurd hi (Nat.not_lt_zero i)⟩
      · rintro ⟨j, -, hj, -, hfirst⟩
        cases j with
        | zero => exact hj
        | succ j => exact absurd hunused (hfirst 0 (Nat.succ_pos j))
    · rw [if_pos (hbusy.mpr hunused)]
      dsimp only
      rw [probe_succ, ih]
      constructor
      · rintro ⟨j, hj, hprobe, hfree, hfirst⟩
        refine ⟨j + 1, Nat.succ_lt_succ hj, ?_, hfree, fun i hi => ?_⟩
        · rw [← hprobe]
          congr 1
          omega
        · cases i with
          | zero => exact hunused
          | succ i =>
            have hi' := hfirst i (Nat.lt_of_succ_lt_succ hi)
            rwa [show k + 1 + i = k + (i + 1) by omega] at hi'
      · rintro ⟨j, hj, hprobe, hfree, hfirst⟩
        cases j with
        | zero =>
          rw [← hprobe] at hfree
          exact absurd hfree hunused
        | succ j =>
          refine ⟨j, Nat.lt_of_succ_lt_succ hj, ?_, hfree, fun i hi => ?_⟩
          · rw [← hprobe]
            congr 1
            omega
          · have hi' := hfirst (i + 1) (Nat.succ_lt_succ hi)
            rwa [show k + (i + 1) = k + 1 + i by omega] at hi'

/-- `_GenerateHandleID` returns the first handle of one turn that it can
take. -/
theorem generateHandleID_eq_some_iff (hcounter : dwCounter < uint32Max)
    {handle : UInt32} :
    generateHandleID contextMap dwCounter = some handle ↔
      ∃ j, j < 2 ^ 32 - 1 ∧ probe dwCounter j = handle ∧ Unused contextMap handle ∧
        ∀ i, i < j → ¬ Unused contextMap (probe dwCounter i) := by
  rw [generateHandleID, ← probe_zero hcounter, generateHandleLoop_eq_some_iff]
  simp only [Nat.zero_add]
  constructor
  · rintro ⟨j, -, hprobe, hfree, hfirst⟩
    refine ⟨j, ?_, hprobe, hfree, hfirst⟩
    by_contra hlong
    -- a turn earlier the search has looked at the same handle
    apply hfirst (j - (2 ^ 32 - 1)) (by omega)
    have hsame : probe dwCounter (j - (2 ^ 32 - 1)) = probe dwCounter j := by
      rw [← UInt32.toNat_inj, toNat_probe, toNat_probe]
      omega
    rw [hsame, hprobe]
    exact hfree
  · rintro ⟨j, hj, hrest⟩
    exact ⟨j, hj.trans (by decide), hrest⟩

end Search

/-! ## The nodes of the wheel -/

namespace WheelState

variable {ε : Type*}

/-- An event that a node in one of the wheel's lists carries, or a node of the
detached list that is still to be dispatched. -/
def Pending (s : WheelState ε) (event : ε) : Prop :=
  (∃ list, ∃ node ∈ s.timer.get list, node.event = event) ∨
    event ∈ s.remaining

/-- The events that have been added and not yet dispatched. -/
def pending (s : WheelState ε) : List ε :=
  s.remaining ++ (s.deadlines.filter fun p => s.ticks < p.1).map Prod.snd

variable {s s' : WheelState ε}

/-- The history knows what the lists hold. -/
theorem Inv.pending_iff (h : s.Inv) {event : ε} : s.Pending event ↔ event ∈ s.pending := by
  rw [Pending, pending, List.mem_append, or_comm]
  refine or_congr Iff.rfl ?_
  rw [List.mem_map]
  constructor
  · rintro ⟨list, node, hnode, rfl⟩
    rw [h.holds.get_eq, List.mem_map] at hnode
    obtain ⟨p, hp, rfl⟩ := hnode
    exact ⟨p, (List.mem_filter.mp hp).1, rfl⟩
  · rintro ⟨p, hp, rfl⟩
    obtain ⟨hle, hnear⟩ := h.holds.reach p hp
    refine ⟨listFor (UInt32.ofNat p.1) (UInt32.ofNat s.ticks), nodeOf p, ?_,
      rfl⟩
    rw [h.holds.get_eq, position_listFor hle hnear]
    exact List.mem_map_of_mem (List.mem_filter.mpr ⟨hp, decide_eq_true rfl⟩)

/-- Adding a node. -/
theorem pending_add {delay : Delay} {event : ε} (hstep : s.step (.add delay event) = some s') :
    s'.pending = s.pending ++ [event] := by
  have hpos := delay.pos
  cases hstep
  have hdeadlines : deadlines { s with
      timer := s.timer.timerAdd event delay.ticks
      added := s.added ++ [⟨s.ticks, delay, event⟩] } =
        s.deadlines ++ [(s.ticks + delay.ticks, event)] :=
    deadlines_of_added rfl
  rw [pending, hdeadlines, List.filter_append, List.map_append, pending, List.append_assoc]
  simp [remaining, hpos]

/-- Dispatching a node. -/
theorem pending_dispatch {shifted : Bool} {node : TimerNode ε}
    {rest : List (TimerNode ε)}
    (hpc : s.pc = .dispatching shifted (node :: rest))
    (hstep : s.step .dispatch = some s') :
    s.pending = node.event :: s'.pending := by
  rw [step, hpc] at hstep
  cases hstep
  rw [pending, remaining, hpc]
  rfl

/-- The next tick detaches some of the nodes. -/
theorem Inv.pending_update (h : s.Inv) (hstep : s.step .update = some s') :
    s'.pending.Perm s.pending := by
  have hidle : s.pc = .idle := by
    rw [step] at hstep
    split at hstep
    · assumption
    · cases hstep
  obtain ⟨s'', hstep', hticks, hadded, hdispatched⟩ := h.step_update hidle
  obtain rfl : s' = s'' := Option.some.inj (hstep.symm.trans hstep')
  have hdeadlines : s'.deadlines = s.deadlines := by
    rw [deadlines, deadlines, hadded]
  have hnone : s'.dispatchedIn s'.ticks = [] := by
    rw [dispatchedIn, hdispatched, hticks]
    exact h.dispatchedIn_of_lt (Nat.lt_succ_self _)
  have hremaining := (inv_step s .update s' h hstep).present
  rw [hnone, List.nil_append, dueIn, hdeadlines, hticks] at hremaining
  have hnow : (s.deadlines.filter fun p => s.ticks < p.1).filter (fun p => p.1 = s.ticks + 1) =
        s.deadlines.filter fun p => p.1 = s.ticks + 1 := by
    rw [List.filter_filter]
    refine List.filter_congr fun p _ => ?_
    rw [Bool.eq_iff_iff, Bool.and_eq_true, decide_eq_true_eq, decide_eq_true_eq]
    omega
  have hlater : (s.deadlines.filter fun p => s.ticks < p.1).filter
      (fun p => !decide (p.1 = s.ticks + 1)) = s.deadlines.filter fun p => s.ticks + 1 < p.1 := by
    rw [List.filter_filter]
    refine List.filter_congr fun p _ => ?_
    rw [Bool.eq_iff_iff, Bool.and_eq_true, Bool.not_eq_true', decide_eq_true_eq,
      decide_eq_false_iff_not, decide_eq_true_eq]
    omega
  rw [pending, pending, hremaining, hdeadlines, hticks, remaining, hidle,
    ← List.map_append, ← hnow, ← hlater]
  exact (List.filter_append_perm _ _).map Prod.snd

/-- When a list is done, nothing is left over. -/
theorem Inv.pending_relock (h : s.Inv) (hstep : s.step .relock = some s') :
    s'.pending = s.pending := by
  rw [step] at hstep
  split at hstep
  · next shifted hpc =>
    obtain ⟨rfl, hexecute⟩ := h.relock hpc
    rw [if_pos rfl, hexecute] at hstep
    cases hstep
    rw [pending, pending, remaining, remaining, hpc]
    rfl
  · cases hstep

end WheelState

/-! ## What a step does to the handles -/

namespace GameTimer

variable {κ ρ : Type*} {s s' : GameTimer κ ρ} {key : TimerKey}

/-- Everything a step can do to the counter, the context map and the wheel. -/
inductive HandleChange (s s' : GameTimer κ ρ) : Action κ ρ → Prop
  /-- A key that is too long is refused. -/
  | refused (key : TimerKey) (time : Int32) (callback : κ) (queue : ρ)
      (address : Address) (hlong : gametimerMaxTimerKeyLen < key.length)
      (hsame : s' = s) :
      HandleChange s s' (.addTimer key time callback queue address)
  | register (key : TimerKey) (time : Int32) (callback : κ) (queue : ρ)
      (address : Address) (s₁ : GameTimer κ ρ) (handle : UInt32) (delay : Delay)
      (hlength : key.length ≤ gametimerMaxTimerKeyLen)
      (hremove : s.removeKey key = some s₁)
      (hhandle : generateHandleID s₁.contextMap s₁.dwCounter = some handle)
      (hcounter : s'.dwCounter = handle)
      (hmap : s'.contextMap = Function.update s₁.contextMap handle
        (some address))
      (hwheel : s₁.wheel.step (.add delay ⟨handle, address⟩) = some s'.wheel) :
      HandleChange s s' (.addTimer key time callback queue address)
  | remove (key : TimerKey) (hcounter : s'.dwCounter = s.dwCounter)
      (hmap : ∀ handle address, s'.contextMap handle = some address →
        s.contextMap handle = some address)
      (hwheel : s'.wheel = s.wheel) : HandleChange s s' (.removeTimer key)
  | update (hcounter : s'.dwCounter = s.dwCounter)
      (hmap : s'.contextMap = s.contextMap)
      (hwheel : s.wheel.step .update = some s'.wheel) : HandleChange s s' .update
  | fire (shifted : Bool) (node : TimerNode TimerEvent)
      (rest : List (TimerNode TimerEvent))
      (hpc : s.wheel.pc = .dispatching shifted (node :: rest))
      (hcounter : s'.dwCounter = s.dwCounter)
      (hmap : ∀ handle address, s'.contextMap handle = some address →
        handle ≠ node.event.handle ∧ s.contextMap handle = some address)
      (hwheel : s.wheel.step .dispatch = some s'.wheel) :
      HandleChange s s' .timeout
  | relock (hcounter : s'.dwCounter = s.dwCounter)
      (hmap : s'.contextMap = s.contextMap)
      (hwheel : s.wheel.step .relock = some s'.wheel) : HandleChange s s' .relock

/-- `_RemoveTimerHandle` leaves the other handles, and the counter. -/
theorem removeTimerHandle_handles {handle : UInt32} (h : s.removeTimerHandle handle = some s') :
    s'.dwCounter = s.dwCounter ∧ ∀ other address, s'.contextMap other = some address →
        other ≠ handle ∧ s.contextMap other = some address := by
  rcases removeTimerHandle_cases h with ⟨hnone, rfl⟩ | ⟨address, ctx, -, -, rfl⟩
  · refine ⟨rfl, fun other address hmap => ⟨?_, hmap⟩⟩
    rintro rfl
    rw [hnone] at hmap
    cases hmap
  · exact ⟨rfl, fun other address hmap => update_none_eq_some_iff.mp hmap⟩

theorem removeKey_handles (h : s.removeKey key = some s') :
    s'.dwCounter = s.dwCounter ∧
      ∀ handle address, s'.contextMap handle = some address →
        s.contextMap handle = some address := by
  unfold removeKey at h
  split at h
  · obtain ⟨hcounter, hmap⟩ := removeTimerHandle_handles h
    exact ⟨hcounter, fun handle address hsome => (hmap handle address hsome).2⟩
  · cases h
    exact ⟨rfl, fun _ _ hsome => hsome⟩

theorem handleChange_of_addTimer {time : Int32} {callback : κ} {queue : ρ}
    {address : Address}
    (h : s.step (.addTimer key time callback queue address) = some s') :
    HandleChange s s' (.addTimer key time callback queue address) := by
  obtain ⟨⟨s₂, iRet⟩, hadd, rfl⟩ := Option.map_eq_some_iff.mp h
  obtain ⟨hlong, hsame⟩ | ⟨hlength, s₃, handle, delay, wheel, hregister, hwheel,
    hadded⟩ := addTimer_cases hadd
  · exact .refused key time callback queue address hlong hsame
  · obtain ⟨s₁, hremove, hhandle, -, rfl⟩ := registerTimer_cases hregister
    rw [hadded]
    exact .register key time callback queue address s₁ handle delay hlength hremove hhandle rfl
      (mapInsert_of_none (generateHandleLoop_free hhandle) address) hwheel

theorem handleChange_of_step {a : Action κ ρ} (h : s.step a = some s') : HandleChange s s' a := by
  cases a with
  | addTimer key time callback queue address =>
    exact handleChange_of_addTimer h
  | removeTimer key =>
    obtain ⟨r, hremove, rfl⟩ := Option.map_eq_some_iff.mp h
    rcases removeTimer_cases hremove with ⟨-, hsame⟩ | ⟨-, s₁, hkey, hsame⟩
    · rw [hsame]
      exact .remove key rfl (fun _ _ hmap => hmap) rfl
    · obtain ⟨hcounter, hmap⟩ := removeKey_handles hkey
      have hwheel := wheel_of_removeKey hkey
      rw [hsame]
      exact .remove key hcounter hmap hwheel
  | update =>
    obtain ⟨wheel, hwheel, rfl⟩ := Option.map_eq_some_iff.mp h
    exact .update rfl rfl hwheel
  | timeout =>
    simp only [step] at h
    split at h
    · next shifted node rest hpc =>
      obtain ⟨s₁, htimeout, h⟩ := Option.bind_eq_some_iff.mp h
      obtain ⟨wheel, hwheel, rfl⟩ := Option.map_eq_some_iff.mp h
      obtain ⟨hcounter, hmap⟩ :=
        removeTimerHandle_handles (timerTimeout_cases htimeout)
      rw [wheel_of_timerTimeout htimeout] at hwheel
      exact .fire shifted node rest hpc hcounter hmap hwheel
    · cases h
  | relock =>
    obtain ⟨wheel, hwheel, rfl⟩ := Option.map_eq_some_iff.mp h
    exact .relock rfl rfl hwheel

/-! ## Handles along a run -/

/-- What holds in every run: the counter is a handle, and so is what a pending
node carries. -/
structure HandleInv (s : GameTimer κ ρ) : Prop where
  wheel : s.wheel.Inv
  counter : s.dwCounter < uint32Max
  pos : ∀ event ∈ s.wheel.pending, event.handle ≠ 0

theorem handleInv_construct : (construct : GameTimer κ ρ).HandleInv where
  wheel := WheelState.inv_fresh
  counter := (by decide : (0 : UInt32) < uint32Max)
  pos := by
    intro event hevent
    cases hevent

/-- A handle that has been generated is one. -/
theorem HandleInv.generated (h : s.HandleInv) {s₁ : GameTimer κ ρ}
    (hremove : s.removeKey key = some s₁) {handle : UInt32}
    (hhandle : generateHandleID s₁.contextMap s₁.dwCounter = some handle) :
    handle ≠ 0 ∧ handle < uint32Max := by
  have hcounter : s₁.dwCounter < uint32Max := by
    rw [(removeKey_handles hremove).1]
    exact h.counter
  obtain ⟨j, -, hprobe, hunused, -⟩ :=
    (generateHandleID_eq_some_iff hcounter).mp hhandle
  refine ⟨?_, hunused.2⟩
  rintro rfl
  have hnat : (probe s₁.dwCounter j).toNat = _ := toNat_probe j
  rw [hprobe] at hnat
  exact absurd hnat (Nat.succ_ne_zero _).symm

theorem handleInv_step (s : GameTimer κ ρ) (a : Action κ ρ) (s' : GameTimer κ ρ)
    (h : s.HandleInv) (hstep : s.step a = some s') : s'.HandleInv := by
  cases handleChange_of_step hstep with
  | refused key time callback queue address hlong hsame =>
    rw [hsame]
    exact h
  | register key time callback queue address s₁ handle delay hlength hremove
      hhandle hcounter hmap hwheel =>
      obtain ⟨hne, hlt⟩ := h.generated hremove hhandle
      rw [wheel_of_removeKey hremove] at hwheel
      refine ⟨WheelState.inv_step _ _ _ h.wheel hwheel, hcounter ▸ hlt, ?_⟩
      intro event hevent
      rw [WheelState.pending_add hwheel] at hevent
      rcases List.mem_append.mp hevent with hold | hnew
      · exact h.pos event hold
      · rw [List.mem_singleton.mp hnew]
        exact hne
  | remove key hcounter hmap hwheel =>
    exact ⟨hwheel ▸ h.wheel, hcounter ▸ h.counter, hwheel ▸ h.pos⟩
  | update hcounter hmap hwheel =>
    refine ⟨WheelState.inv_step _ _ _ h.wheel hwheel, hcounter ▸ h.counter,
      fun event hevent => h.pos event ?_⟩
    exact (h.wheel.pending_update hwheel).mem_iff.mp hevent
  | fire shifted node rest hpc hcounter hmap hwheel =>
    refine ⟨WheelState.inv_step _ _ _ h.wheel hwheel, hcounter ▸ h.counter,
      fun event hevent => h.pos event ?_⟩
    rw [WheelState.pending_dispatch hpc hwheel]
    exact List.mem_cons_of_mem _ hevent
  | relock hcounter hmap hwheel =>
    refine ⟨WheelState.inv_step _ _ _ h.wheel hwheel, hcounter ▸ h.counter,
      fun event hevent => h.pos event ?_⟩
    rwa [h.wheel.pending_relock hwheel] at hevent

/-- The handle that `AddTimer` gets is not the one of a pending node. -/
def FreshHandle (s : GameTimer κ ρ) : Action κ ρ → Prop
  | .addTimer key _ _ _ _ =>
    key.length ≤ gametimerMaxTimerKeyLen → ∀ s₁ handle,
      s.removeKey key = some s₁ →
      generateHandleID s₁.contextMap s₁.dwCounter = some handle →
      ∀ event, s.wheel.Pending event → event.handle ≠ handle
  | _ => True

/-- When a timer is added, an unused handle that a pending node carries is not
the next one: another unused handle comes before it.  The timer of the same key
is removed first. -/
def HandleLeft (s : GameTimer κ ρ) : Action κ ρ → Prop
  | .addTimer key _ _ _ _ =>
    key.length ≤ gametimerMaxTimerKeyLen → ∀ s₁, s.removeKey key = some s₁ →
      ∀ event, s.wheel.Pending event → Unused s₁.contextMap event.handle →
        ∃ other, Unused s₁.contextMap other ∧
          ComesBefore s₁.dwCounter other event.handle
  | _ => True

/-- Where a call of `AddTimer` gets its handle, the two conditions agree. -/
theorem HandleInv.freshHandle_iff (h : s.HandleInv) {a : Action κ ρ}
    (hstep : s.step a = some s') : s.FreshHandle a ↔ s.HandleLeft a := by
  cases handleChange_of_step hstep with
  | refused key time callback queue address hlong hsame =>
    have hnot : ¬ key.length ≤ gametimerMaxTimerKeyLen := Nat.not_le.mpr hlong
    exact iff_of_true (fun hle => absurd hle hnot) fun hle => absurd hle hnot
  | remove => exact Iff.rfl
  | update => exact Iff.rfl
  | fire => exact Iff.rfl
  | relock => exact Iff.rfl
  | register key time callback queue address s₁ handle delay hlength hremove
      hhandle hcounter hmap hwheel =>
      have hlt : s₁.dwCounter < uint32Max := by
        rw [(removeKey_handles hremove).1]
        exact h.counter
      obtain ⟨j, hj, hprobe, hunused, hfirst⟩ :=
        (generateHandleID_eq_some_iff hlt).mp hhandle
      constructor
      · intro hfresh _ s₂ hremove' event hpending hevent
        obtain rfl : s₁ = s₂ := Option.some.inj (hremove.symm.trans hremove')
        refine ⟨handle, hunused, ?_⟩
        obtain ⟨k, hk, hprobe'⟩ := exists_probe s₁.dwCounter
          (h.pos event (h.wheel.pending_iff.mp hpending))
        refine ⟨j, k, ?_, hk, hprobe, hprobe'⟩
        -- the search has stopped at the first unused handle
        have hle : j ≤ k := by
          by_contra hlate
          exact hfirst k (Nat.lt_of_not_le hlate) (hprobe' ▸ hevent)
        refine Nat.lt_of_le_of_ne hle fun heq => ?_
        rw [← heq, hprobe] at hprobe'
        exact hfresh hlength s₁ handle hremove hhandle event hpending hprobe'.symm
      · intro hleft _ s₂ handle' hremove' hhandle' event hpending heq
        obtain rfl : s₁ = s₂ := Option.some.inj (hremove.symm.trans hremove')
        obtain rfl : handle = handle' :=
          Option.some.inj (hhandle.symm.trans hhandle')
        obtain ⟨other, hother, i, k, hik, hk, hi, hprobe'⟩ :=
          hleft hlength s₁ hremove event hpending (heq ▸ hunused)
        have hjk : j = k :=
          probe_injective hj hk (by rw [hprobe, hprobe', heq])
        exact hfirst i (hjk ▸ hik) (hi ▸ hother)

/-- The pending nodes carry different handles, and one whose handle is in use
carries the context of the timer that owns it. -/
def OwnNodes (s : GameTimer κ ρ) : Prop :=
  (s.wheel.pending.map TimerEvent.handle).Nodup ∧
    ∀ event, s.wheel.Pending event → ∀ address,
      s.contextMap event.handle = some address → event.ctx = address

/-- What fresh handles preserve: besides the handles being different, the timer
of a handle has its own node in the wheel. -/
structure OwnInv (s : GameTimer κ ρ) : Prop where
  inv : s.HandleInv
  distinct : (s.wheel.pending.map TimerEvent.handle).Nodup
  own : ∀ handle address, s.contextMap handle = some address →
    (⟨handle, address⟩ : TimerEvent) ∈ s.wheel.pending

theorem ownInv_construct : (construct : GameTimer κ ρ).OwnInv where
  inv := handleInv_construct
  distinct := List.nodup_nil
  own := by
    intro handle address hmap
    cases hmap

theorem OwnInv.ownNodes (h : s.OwnInv) : s.OwnNodes := by
  refine ⟨h.distinct, fun event hpending address hmap => ?_⟩
  have hsame : event = ⟨event.handle, address⟩ :=
    List.inj_on_of_nodup_map h.distinct (h.inv.wheel.pending_iff.mp hpending) (h.own _ _ hmap) rfl
  rw [hsame]

theorem ownInv_step (s : GameTimer κ ρ) (a : Action κ ρ) (s' : GameTimer κ ρ)
    (h : s.OwnInv) (hfresh : s.FreshHandle a) (hstep : s.step a = some s') :
    s'.OwnInv := by
  have hinv := handleInv_step s a s' h.inv hstep
  cases handleChange_of_step hstep with
  | refused key time callback queue address hlong hsame =>
    rw [hsame]
    exact h
  | register key time callback queue address s₁ handle delay hlength hremove
      hhandle hcounter hmap hwheel =>
      rw [wheel_of_removeKey hremove] at hwheel
      have hpending := WheelState.pending_add hwheel
      refine ⟨hinv, ?_, fun other address' hother => ?_⟩
      · rw [hpending, List.map_append]
        refine h.distinct.append (List.nodup_singleton _) ?_
        intro other hold hnew
        obtain ⟨event, hevent, rfl⟩ := List.mem_map.mp hold
        exact hfresh hlength s₁ handle hremove hhandle event
          (h.inv.wheel.pending_iff.mpr hevent) (List.mem_singleton.mp hnew)
      · rw [hpending]
        rw [hmap] at hother
        rcases update_some_eq_some_iff.mp hother with
          ⟨rfl, rfl⟩ | ⟨-, hold⟩
        · exact List.mem_append_right _ (List.mem_singleton_self _)
        · exact List.mem_append_left _
            (h.own other address' ((removeKey_handles hremove).2 _ _ hold))
  | remove key hcounter hmap hwheel =>
    refine ⟨hinv, hwheel ▸ h.distinct, fun handle address hsome => ?_⟩
    rw [hwheel]
    exact h.own handle address (hmap handle address hsome)
  | update hcounter hmap hwheel =>
    have hperm := h.inv.wheel.pending_update hwheel
    refine ⟨hinv, (hperm.map _).nodup_iff.mpr h.distinct, fun handle address hsome => ?_⟩
    exact hperm.mem_iff.mpr (h.own handle address (hmap ▸ hsome))
  | fire shifted node rest hpc hcounter hmap hwheel =>
    have hpending := WheelState.pending_dispatch hpc hwheel
    have hdistinct := h.distinct
    rw [hpending, List.map_cons, List.nodup_cons] at hdistinct
    refine ⟨hinv, hdistinct.2, fun handle address hsome => ?_⟩
    obtain ⟨hne, hold⟩ := hmap handle address hsome
    have hmem := h.own handle address hold
    rw [hpending] at hmem
    rcases List.mem_cons.mp hmem with heq | hmem
    · exact absurd (congrArg TimerEvent.handle heq) hne
    · exact hmem
  | relock hcounter hmap hwheel =>
    have hpending := h.inv.wheel.pending_relock hwheel
    refine ⟨hinv, hpending ▸ h.distinct, fun handle address hsome => ?_⟩
    rw [hpending]
    exact h.own handle address (hmap ▸ hsome)

/-- **Handles of pending nodes.**  In a run of any length, every handle that
`AddTimer` gets is different from those of the pending nodes, and every pending
node belongs to the timer that owns its handle, exactly if at every call of
`AddTimer` each unused handle of a pending node has another unused one before
it. -/
theorem handles_fresh_iff {actions : List (Action κ ρ)} {t : GameTimer κ ρ}
    (hrun : runSteps step construct actions = some t) :
    (RunMeets step FreshHandle construct actions ∧ ∀ first rest r, actions = first ++ rest →
        runSteps step construct first = some r → OwnNodes r) ↔
      RunMeets step HandleLeft construct actions := by
  have hiff := runMeets_congr handleInv_step
    (fun s a s' h hstep => HandleInv.freshHandle_iff h hstep)
    (handleInv_construct (κ := κ) (ρ := ρ)) hrun
  rw [← hiff]
  refine ⟨fun h => h.1, fun hfresh => ⟨hfresh, ?_⟩⟩
  rintro first rest r rfl hfirst
  exact (runSteps_invariant_of_meets ownInv_step ownInv_construct
    (runMeets_append.mp hfresh).1 hfirst).ownNodes

/-- A timer that is replaced once. -/
theorem handles_fresh_iff_replaced :
    ∃ t : GameTimer Nat Nat, runSteps step construct
        [.addTimer [97] 1000 0 0 1, .addTimer [97] 1000 0 0 2] = some t ∧
      RunMeets step FreshHandle (construct : GameTimer Nat Nat)
        [.addTimer [97] 1000 0 0 1, .addTimer [97] 1000 0 0 2] ∧
      OwnNodes t := by
  obtain ⟨t, hrun⟩ : ∃ t : GameTimer Nat Nat, runSteps step construct
      [.addTimer [97] 1000 0 0 1, .addTimer [97] 1000 0 0 2] = some t := ⟨_, rfl⟩
  have hleft : RunMeets step HandleLeft (construct : GameTimer Nat Nat)
      [.addTimer [97] 1000 0 0 1, .addTimer [97] 1000 0 0 2] := by
    refine ⟨?_, fun s hstep => ⟨?_, fun _ _ => trivial⟩⟩
    · intro _ s₁ _ event hpending
      cases handleInv_construct.wheel.pending_iff.mp hpending
    · intro _ s₁ hremove event hpending _
      have hinv := handleInv_step _ _ s handleInv_construct hstep
      have hmem := hinv.wheel.pending_iff.mp hpending
      cases hstep
      cases hremove
      rw [List.mem_singleton.mp hmem]
      exact ⟨2, ⟨rfl, by decide⟩, 0, 2 ^ 32 - 2, by decide, by decide, by decide, by decide⟩
  obtain ⟨hfresh, hown⟩ := (handles_fresh_iff hrun).mpr hleft
  exact ⟨t, hrun, hfresh, hown _ [] t rfl hrun⟩

/-! ## After four thousand million calls -/

/-- `AddTimer` when it finds a handle and a free address. -/
theorem exists_step_addTimer {s₁ : GameTimer κ ρ} {time : Int32} (callback : κ)
    (queue : ρ) {address : Address} {handle : UInt32} {delay : Delay}
    (hlength : key.length ≤ gametimerMaxTimerKeyLen)
    (hremove : s.removeKey key = some s₁)
    (hhandle : generateHandleID s₁.contextMap s₁.dwCounter = some handle)
    (hfree : s₁.heap address = none) (hdelay : Delay.ofInt time = some delay) :
    ∃ s', s.step (.addTimer key time callback queue address) = some s' ∧ s'.dwCounter = handle ∧
      s'.contextMap = mapInsert s₁.contextMap handle address ∧
      s'.timerKeyMap = mapInsert s₁.timerKeyMap key handle ∧
      s'.heap = Function.update s₁.heap address (some ⟨handle,
        strncpy gametimerMaxTimerKeyLenExtra key, callback, queue⟩) ∧
      s₁.wheel.step (.add delay ⟨handle, address⟩) = some s'.wheel := by
  have hstep : s.step (.addTimer key time callback queue address) = some { s₁ with
      dwCounter := handle
      heap := Function.update s₁.heap address (some ⟨handle,
        strncpy gametimerMaxTimerKeyLenExtra key, callback, queue⟩)
      contextMap := mapInsert s₁.contextMap handle address
      timerKeyMap := mapInsert s₁.timerKeyMap key handle
      wheel := { s₁.wheel with
        timer := s₁.wheel.timer.timerAdd ⟨handle, address⟩ delay.ticks
        added := s₁.wheel.added ++ [⟨s₁.wheel.ticks, delay, ⟨handle, address⟩⟩] } } := by
    rw [step, addTimer, if_neg (Nat.not_lt.mpr hlength), registerTimer, hremove,
      Option.bind_some, hhandle, Option.bind_some, hfree]
    simp only [Option.isSome_none, Bool.false_eq_true, if_false, addTimerHandle,
      hdelay, Option.bind_some, WheelState.step, Option.map_some]
  exact ⟨_, hstep, rfl, rfl, rfl, rfl, rfl⟩

/-- One timer under the key, the latest of those that have replaced each other,
and a node that carries the handle 1. -/
structure Replacing (s : GameTimer Nat Nat) (handle : UInt32)
    (address : Address) : Prop where
  counter : s.dwCounter = handle
  map : s.contextMap = Function.update (fun _ => none) handle (some address)
  key : s.timerKeyMap [97] = some handle
  ctx : ∃ ctx, s.heap address = some ctx ∧ ctx.timerKey = [97]
  free : s.heap 2 = none ∨ address = 2
  node : (⟨1, 1⟩ : TimerEvent) ∈ s.wheel.pending

/-- The action that replaces the timer. -/
def replace : Action Nat Nat := .addTimer [97] 1000 0 0 2

section Replacing

variable {s : GameTimer Nat Nat} {handle next : UInt32} {address : Address}

/-- The timer is removed before it is replaced. -/
theorem Replacing.removeKey (h : Replacing s handle address) :
    ∃ s₁, s.removeKey [97] = some s₁ ∧ s₁.dwCounter = handle ∧
      s₁.contextMap = (fun _ => none) ∧ s₁.timerKeyMap [97] = none ∧
      s₁.heap 2 = none ∧ s₁.wheel = s.wheel := by
  obtain ⟨ctx, hctx, hkey⟩ := h.ctx
  have hmap : s.contextMap handle = some address := by
    rw [h.map, Function.update_self]
  refine ⟨s.dropHandle handle address ctx.timerKey, ?_, h.counter, ?_, ?_, ?_,
    rfl⟩
  · rw [GameTimer.removeKey, h.key]
    dsimp only
    rw [removeTimerHandle, hmap]
    dsimp only
    rw [hctx]
    rfl
  · show Function.update s.contextMap handle none = _
    rw [h.map, Function.update_idem, Function.update_eq_self]
  · show Function.update s.timerKeyMap ctx.timerKey none [97] = none
    rw [hkey, Function.update_self]
  · show Function.update s.heap address none 2 = none
    rcases h.free with hfree | rfl
    · rw [Function.update_apply]
      split_ifs
      · rfl
      · exact hfree
    · rw [Function.update_self]

/-- The timer is replaced by one with the handle that the search finds. -/
theorem Replacing.step (h : Replacing s handle address)
    (hnext : generateHandleID (fun _ => none) handle = some next) :
    ∃ s', GameTimer.step s replace = some s' ∧ Replacing s' next 2 := by
  obtain ⟨s₁, hremove, hcounter, hmap, hkey, hfree, hwheel⟩ := h.removeKey
  have hdelay : Delay.ofInt 1000 = some ⟨1000, by decide, by decide⟩ := rfl
  obtain ⟨s', hstep, hcounter', hmap', hkey', hheap', hwheel'⟩ :=
    exists_step_addTimer 0 0 (by decide) hremove (by rw [hmap, hcounter]; exact hnext) hfree hdelay
  refine ⟨s', hstep, hcounter', ?_, ?_, ?_, .inr rfl, ?_⟩
  · rw [hmap', hmap, mapInsert_of_none rfl]
  · rw [hkey', mapInsert_of_none hkey, Function.update_self]
  · refine ⟨_, by rw [hheap', Function.update_self], ?_⟩
    exact cString_strncpy (by decide) (by decide)
  · rw [hwheel] at hwheel'
    rw [WheelState.pending_add hwheel']
    exact List.mem_append_left _ h.node

/-- Replacing it again and again uses up the handles one by one. -/
theorem Replacing.run {k : Nat} (h : Replacing s (UInt32.ofNat k) address)
    (n : Nat) (hn : k + n < 2 ^ 32 - 1) :
    ∃ s' address', runSteps GameTimer.step s (List.replicate n replace) =
      some s' ∧ Replacing s' (UInt32.ofNat (k + n)) address' := by
  induction n generalizing s k address with
  | zero => exact ⟨s, address, rfl, h⟩
  | succ n ih =>
    have hnext : generateHandleID (fun _ => none) (UInt32.ofNat k) =
        some (UInt32.ofNat (k + 1)) := by
      rw [UInt32.ofNat_add]
      refine generateHandleID_of_free rfl ?_
      have hone : UInt32.ofNat k + 1 = UInt32.ofNat (k + 1) := by
        rw [UInt32.ofNat_add]
        rfl
      rw [hone, UInt32.lt_iff_toNat_lt, UInt32.toNat_ofNat', toNat_uint32Max]
      omega
    obtain ⟨s₁, hstep, h₁⟩ := h.step hnext
    obtain ⟨s', address', hrun, h'⟩ := ih h₁ (by omega)
    refine ⟨s', address', ?_, ?_⟩
    · rw [List.replicate_succ, runSteps_cons_eq_some_iff]
      exact ⟨s₁, hstep, hrun⟩
    · rwa [show k + 1 + n = k + (n + 1) by omega] at h'

end Replacing

/-- The first handle. -/
theorem generateHandleID_first : generateHandleID (fun _ => none) 0 = some 1 :=
  generateHandleID_of_free rfl (by decide)

/-- At the end of the turn the search comes back to 1. -/
theorem generateHandleID_last :
    generateHandleID (fun _ => none) (UInt32.ofNat (2 ^ 32 - 2)) = some 1 := by
  refine (generateHandleID_eq_some_iff (by decide)).mpr
    ⟨1, by decide, by decide, ⟨rfl, by decide⟩, fun i hi hunused => ?_⟩
  obtain rfl : i = 0 := by omega
  exact absurd hunused.2 (by decide)

/-- A timer is replaced until the counter has come round.  The next call of
`AddTimer` gets the handle of the first node, which is still in the wheel and
carries the context that was deleted first. -/
theorem handle_of_pending_node_reused :
    ∃ s s' : GameTimer Nat Nat,
      runSteps step construct (.addTimer [97] 1000 0 0 1 ::
        List.replicate (2 ^ 32 - 3) (.addTimer [97] 1000 0 0 2)) = some s ∧
      step s (.addTimer [97] 1000 0 0 2) = some s' ∧
      ¬ s.FreshHandle (.addTimer [97] 1000 0 0 2) ∧
      s'.wheel.Pending ⟨1, 1⟩ ∧ s'.contextMap 1 = some 2 := by
  have hdelay : Delay.ofInt 1000 = some ⟨1000, by decide, by decide⟩ := rfl
  have hremove₀ : (construct : GameTimer Nat Nat).removeKey [97] = some construct := rfl
  have hfree₀ : (construct : GameTimer Nat Nat).heap 1 = none := rfl
  obtain ⟨s₁, hfirst, hcounter, hmap, hkey, hheap, hwheel⟩ :=
    exists_step_addTimer 0 0 (by decide) hremove₀ generateHandleID_first hfree₀ hdelay
  have hreplacing : Replacing s₁ (UInt32.ofNat 1) 1 := by
    refine ⟨hcounter, hmap, ?_, ⟨_, by rw [hheap, Function.update_self], ?_⟩,
      .inl (by rw [hheap]; rfl), ?_⟩
    · rw [hkey]
      rfl
    · exact cString_strncpy (by decide) (by decide)
    · rw [WheelState.pending_add hwheel]
      exact List.mem_append_right _ (List.mem_singleton_self _)
  obtain ⟨s, address, hrun, hlast⟩ :=
    hreplacing.run (2 ^ 32 - 3) (by decide)
  obtain ⟨s', hstep, hagain⟩ := hlast.step generateHandleID_last
  obtain ⟨s₂, hremove, hcounter₂, hmap₂, -⟩ := hlast.removeKey
  have hreach : runSteps step construct (.addTimer [97] 1000 0 0 1 ::
      List.replicate (2 ^ 32 - 3) (.addTimer [97] 1000 0 0 2)) = some s :=
    runSteps_cons_eq_some_iff.mpr ⟨s₁, hfirst, hrun⟩
  have hinv : s.HandleInv :=
    runSteps_invariant handleInv_step handleInv_construct hreach
  refine ⟨s, s', hreach, hstep, fun hfresh => ?_, ?_, ?_⟩
  · exact hfresh (by decide) s₂ 1 hremove
      (by rw [hmap₂, hcounter₂]; exact generateHandleID_last) ⟨1, 1⟩
      (hinv.wheel.pending_iff.mpr hlast.node) rfl
  · exact (handleInv_step s _ s' hinv hstep).wheel.pending_iff.mpr hagain.node
  · rw [hagain.map, Function.update_self]

end GameTimer

end Gametimer
end GameServer
