import GameServer.Timer.WheelRun

/-!
# The wheel and the clock

`GameTimer::TimerUpdate` reads the monotonic clock in hundredths of a second and
calls `timer_update` once for every hundredth that has passed since the reading
before.  The difference of two readings is cut to 32 bits.  Between two of these
calls, and while a list is dispatched, other threads may add timers.

`fires_at_first_late_reading` puts clock and wheel together: a timer that is
added with delay `d` after the reading `L` is dispatched by the first
`TimerUpdate` that reads at least `L + d`.  `L` may lie some time back when the
timer is added, so the timer may be early by the time between two readings.
-/

namespace GameServer
namespace Gametimer

open Lib

variable {ε : Type*}

/-- `struct timespec`, as `clock_gettime` fills it. -/
structure Timespec where
  tvSec : Nat
  tvNsec : Nat
  tvNsec_lt : tvNsec < 1000000000

/-- `gettime`, for what `CLOCK_MONOTONIC` says. -/
def gettime (ti : Timespec) : UInt64 :=
  UInt64.ofNat ti.tvSec * 100 + UInt64.ofNat (ti.tvNsec / 10000000)

/-- The wheel, `current_point` and `current` of `struct timer`, and the calls of
`timer_update` that the loop of `TimerUpdate` has still to make. -/
structure ClockState (ε : Type*) where
  wheel : WheelState ε
  currentPoint : UInt64
  current : UInt64
  left : UInt32

inductive ClockAction (ε : Type*) where
  /-- `TimerUpdate` reads the clock. -/
  | timerUpdate (ti : Timespec)
  /-- An action of the wheel; an update is the next call of the loop. -/
  | wheel (a : WheelAction ε)

namespace WheelState

variable {s s' : WheelState ε}

/-- What has been added stays in the history. -/
theorem mem_deadlines_step {a : WheelAction ε} (hstep : s.step a = some s')
    {p : Nat × ε} (hp : p ∈ s.deadlines) : p ∈ s'.deadlines := by
  rw [deadlines, added_step hstep, List.map_append]
  exact List.mem_append_left _ hp

end WheelState

namespace ClockState

/-- `TimerInit`, with the two clocks it reads. -/
def timerInit (realtime monotonic : Timespec) : ClockState ε where
  wheel := .fresh
  currentPoint := gettime monotonic
  current := UInt64.ofNat (realtime.tvNsec / 10000000)
  left := 0

/-- `TimerUpdate` up to its loop.  A reading that goes back is only noted. -/
def readClock (s : ClockState ε) (ti : Timespec) : ClockState ε :=
  let cp := gettime ti
  if cp < s.currentPoint then
    { s with currentPoint := cp }
  else if cp ≠ s.currentPoint then
    let diff := (cp - s.currentPoint).toUInt32
    { s with
      currentPoint := cp
      current := s.current + diff.toUInt64
      left := diff }
  else s

/-- The loop of `TimerUpdate` has ended. -/
def Returned (s : ClockState ε) : Prop := s.left = 0 ∧ s.wheel.pc = .idle

theorem dispatching_ne_idle (shifted : Bool) (current : List (TimerNode ε)) :
    UpdatePc.dispatching shifted current ≠ .idle := by
  rintro ⟨⟩

instance (pc : UpdatePc ε) : Decidable (pc = .idle) :=
  match pc with
  | .idle => isTrue rfl
  | .dispatching shifted current => isFalse (dispatching_ne_idle shifted current)

instance (s : ClockState ε) : Decidable s.Returned :=
  inferInstanceAs (Decidable (_ ∧ _))

/-- One action.  Only one thread calls `TimerUpdate`. -/
def step (s : ClockState ε) : ClockAction ε → Option (ClockState ε)
  | .timerUpdate ti =>
    match s.wheel.pc with
    | .idle => if s.left = 0 then some (s.readClock ti) else none
    | .dispatching _ _ => none
  | .wheel .update =>
    if s.left = 0 then none
    else (s.wheel.step .update).map fun wheel =>
      { s with wheel := wheel, left := s.left - 1 }
  | .wheel a => (s.wheel.step a).map fun wheel => { s with wheel := wheel }

/-- The condition on the clock: it does not go back, and two readings are less
than 2^32 hundredths of a second apart, which are 497 days. -/
def Steady (s : ClockState ε) : ClockAction ε → Prop
  | .timerUpdate ti => s.currentPoint ≤ gettime ti ∧
      (gettime ti).toNat < s.currentPoint.toNat + 2 ^ 32
  | .wheel _ => True

instance (s : ClockState ε) : DecidablePred s.Steady
  | .timerUpdate _ => inferInstanceAs (Decidable (_ ∧ _))
  | .wheel _ => inferInstanceAs (Decidable True)

/-- The ticks of the wheel and those still to come make up the time that has
passed on the clock. -/
structure Inv (start : UInt64) (s : ClockState ε) : Prop where
  wheel : s.wheel.Inv
  ticks : start.toNat + s.wheel.ticks + s.left.toNat = s.currentPoint.toNat

variable {start : UInt64} {s s' : ClockState ε}

theorem inv_timerInit (realtime monotonic : Timespec) :
    (timerInit realtime monotonic : ClockState ε).Inv (gettime monotonic) :=
  ⟨WheelState.inv_fresh, rfl⟩

theorem Inv.readClock (h : s.Inv start) (hleft : s.left = 0) {ti : Timespec}
    (hsteady : s.Steady (.timerUpdate ti)) :
    (s.readClock ti).Inv start := by
  obtain ⟨hle, hlt⟩ := hsteady
  have hticks := h.ticks
  rw [hleft, UInt32.toNat_zero] at hticks
  have hdiff : ((gettime ti - s.currentPoint).toUInt32).toNat =
      (gettime ti).toNat - s.currentPoint.toNat := by
    rw [UInt64.toNat_toUInt32, UInt64.toNat_sub_of_le _ _ hle]
    omega
  rw [UInt64.le_iff_toNat_le] at hle
  unfold ClockState.readClock
  dsimp only
  rw [if_neg (by rw [UInt64.lt_iff_toNat_lt]; omega)]
  split_ifs with hne
  · refine ⟨h.wheel, ?_⟩
    show start.toNat + s.wheel.ticks +
      ((gettime ti - s.currentPoint).toUInt32).toNat = (gettime ti).toNat
    omega
  · exact h

/-- An action of the wheel within the loop of `TimerUpdate`, or of another
thread. -/
theorem step_wheel_cases {a : WheelAction ε} (hstep : s.step (.wheel a) = some s') :
    ∃ wheel, s.wheel.step a = some wheel ∧ ((a = .update ∧ s.left ≠ 0 ∧
          s' = { s with wheel := wheel, left := s.left - 1 }) ∨
        (a ≠ .update ∧ s' = { s with wheel := wheel })) := by
  cases a with
  | update =>
    obtain ⟨hleft, hmap⟩ := Option.ite_none_left_eq_some.mp hstep
    obtain ⟨wheel, hwheel, rfl⟩ := Option.map_eq_some_iff.mp hmap
    exact ⟨wheel, hwheel, .inl ⟨rfl, hleft, rfl⟩⟩
  | add delay event =>
    simp only [step] at hstep
    obtain ⟨wheel, hwheel, rfl⟩ := Option.map_eq_some_iff.mp hstep
    exact ⟨wheel, hwheel, .inr ⟨by simp, rfl⟩⟩
  | dispatch =>
    obtain ⟨wheel, hwheel, rfl⟩ := Option.map_eq_some_iff.mp hstep
    exact ⟨wheel, hwheel, .inr ⟨by simp, rfl⟩⟩
  | relock =>
    obtain ⟨wheel, hwheel, rfl⟩ := Option.map_eq_some_iff.mp hstep
    exact ⟨wheel, hwheel, .inr ⟨by simp, rfl⟩⟩

theorem step_timerUpdate {ti : Timespec} (hstep : s.step (.timerUpdate ti) = some s') :
    s.Returned ∧ s' = s.readClock ti := by
  simp only [step] at hstep
  split at hstep
  · rename_i hpc
    obtain ⟨hleft, hread⟩ := Option.ite_none_right_eq_some.mp hstep
    exact ⟨⟨hleft, hpc⟩, (Option.some.inj hread).symm⟩
  · cases hstep

theorem Inv.step (h : s.Inv start) {a : ClockAction ε} (hsteady : s.Steady a)
    (hstep : s.step a = some s') : s'.Inv start := by
  cases a with
  | timerUpdate ti =>
    obtain ⟨⟨hleft, -⟩, rfl⟩ := step_timerUpdate hstep
    exact h.readClock hleft hsteady
  | wheel a =>
    obtain ⟨wheel, hwheel, hcases⟩ := step_wheel_cases hstep
    have hinv := WheelState.inv_step _ _ _ h.wheel hwheel
    have hticks := h.ticks
    have htick := h.wheel.ticks_step hwheel
    rcases hcases with ⟨rfl, hleft, rfl⟩ | ⟨hother, rfl⟩
    · refine ⟨hinv, ?_⟩
      have hone : (1 : UInt32) ≤ s.left := by
        rw [UInt32.le_iff_toNat_le]
        have : s.left.toNat ≠ 0 := fun hzero =>
          hleft (UInt32.toNat_inj.mp hzero)
        exact Nat.one_le_iff_ne_zero.mpr this
      show start.toNat + wheel.ticks + (s.left - 1).toNat = s.currentPoint.toNat
      rw [UInt32.toNat_sub_of_le _ _ hone, htick, if_pos (WheelAction.isUpdate_iff.mpr rfl)]
      rw [UInt32.le_iff_toNat_le, UInt32.toNat_one] at hone
      rw [UInt32.toNat_one]
      omega
    · refine ⟨hinv, ?_⟩
      show start.toNat + wheel.ticks + s.left.toNat = _
      rw [htick, if_neg (mt WheelAction.isUpdate_iff.mp hother)]
      exact hticks

theorem inv_of_run {realtime monotonic : Timespec}
    {actions : List (ClockAction ε)}
    (hsteady : RunMeets step Steady (timerInit realtime monotonic) actions)
    (hrun : runSteps step (timerInit realtime monotonic) actions = some s) :
    s.Inv (gettime monotonic) := by
  have hkeep : ∀ (s : ClockState ε) (a : ClockAction ε) (s' : ClockState ε),
      s.Inv (gettime monotonic) → s.Steady a → s.step a = some s' → s'.Inv (gettime monotonic) :=
    fun _ _ _ hinv hsteady hstep => hinv.step hsteady hstep
  exact runSteps_invariant_of_meets hkeep (inv_timerInit realtime monotonic) hsteady hrun

theorem mem_deadlines_of_run {actions : List (ClockAction ε)} {p : Nat × ε}
    (hp : p ∈ s.wheel.deadlines)
    (hrun : runSteps step s actions = some s') : p ∈ s'.wheel.deadlines := by
  have hkeep : ∀ (s : ClockState ε) (a : ClockAction ε) (s' : ClockState ε),
      p ∈ s.wheel.deadlines → s.step a = some s' → p ∈ s'.wheel.deadlines := by
    intro s a s' hp hstep
    cases a with
    | timerUpdate ti =>
      obtain ⟨-, rfl⟩ := step_timerUpdate hstep
      unfold readClock
      dsimp only
      split_ifs <;> exact hp
    | wheel a =>
      obtain ⟨wheel, hwheel, ⟨-, -, rfl⟩ | ⟨-, rfl⟩⟩ := step_wheel_cases hstep
      · exact WheelState.mem_deadlines_step hwheel hp
      · exact WheelState.mem_deadlines_step hwheel hp
  exact runSteps_invariant hkeep hp hrun

/-- **A timer fires at the first reading that is late enough.**  A timer is
added with delay `d` while no `TimerUpdate` is running, and the last reading of
the clock was `L`.  Whenever a later `TimerUpdate` has returned, the timer has
been dispatched if and only if the clock has been read at `L + d` or later. -/
theorem fires_at_first_late_reading {realtime monotonic : Timespec}
    {before after : List (ClockAction ε)} {delay : Delay} {event : ε}
    (hsteady : RunMeets step Steady (timerInit realtime monotonic)
      (before ++ .wheel (.add delay event) :: after))
    (hbefore : runSteps step (timerInit realtime monotonic) before = some s)
    (hbetween : s.Returned)
    (hafter : runSteps step s (.wheel (.add delay event) :: after) = some s')
    (hreturned : s'.Returned) :
    (s.wheel.ticks + delay.ticks, event) ∈ s'.wheel.dispatched ↔
      s.currentPoint.toNat + delay.ticks ≤ s'.currentPoint.toNat := by
  have hrun : runSteps step (timerInit realtime monotonic)
      (before ++ .wheel (.add delay event) :: after) = some s' := by
    rw [runSteps_append, hbefore, Option.bind_some, hafter]
  have hinv := inv_of_run (runMeets_append.mp hsteady).1 hbefore
  have hinv' := inv_of_run hsteady hrun
  have hticks := hinv.ticks
  have hticks' := hinv'.ticks
  rw [hbetween.1, UInt32.toNat_zero] at hticks
  rw [hreturned.1, UInt32.toNat_zero] at hticks'
  constructor
  · intro hmem
    have hle := hinv'.wheel.future _ hmem
    dsimp only at hle
    omega
  · intro hlate
    obtain ⟨s₁, hadd, hrest⟩ := runSteps_cons_eq_some_iff.mp hafter
    have hmem : (s.wheel.ticks + delay.ticks, event) ∈ s₁.wheel.deadlines := by
      obtain ⟨wheel, hwheel, ⟨hne, -⟩ | ⟨-, rfl⟩⟩ := step_wheel_cases hadd
      · cases hne
      · cases hwheel
        rw [WheelState.deadlines, List.map_append]
        exact List.mem_append_right _ (List.mem_singleton_self _)
    have hmem' := mem_deadlines_of_run hmem hrest
    refine hinv'.wheel.dispatched_of_due hmem' (by dsimp only; omega) ?_
    intro _
    rw [WheelState.remaining, hreturned.2]
    exact List.not_mem_nil

/-- A timer of two hundredths, added one tick after the start, is dispatched by
the reading two hundredths later. -/
theorem fires_at_first_late_reading_two_ticks :
    ∃ s s' : ClockState Nat,
      runSteps step (timerInit ⟨0, 0, by decide⟩ ⟨10, 0, by decide⟩)
        [.timerUpdate ⟨10, 10000000, by decide⟩, .wheel .update] = some s ∧
      runSteps step s [.wheel (.add ⟨2, by decide, by decide⟩ 7),
        .timerUpdate ⟨10, 30000000, by decide⟩, .wheel .update, .wheel .update,
        .wheel .dispatch, .wheel .relock] = some s' ∧
      (s.wheel.ticks + 2, 7) ∈ s'.wheel.dispatched := by
  have hsteady : RunMeets step Steady
      (timerInit ⟨0, 0, by decide⟩ ⟨10, 0, by decide⟩ : ClockState Nat)
      ([.timerUpdate ⟨10, 10000000, by decide⟩, .wheel .update] ++
        [.wheel (.add ⟨2, by decide, by decide⟩ 7),
          .timerUpdate ⟨10, 30000000, by decide⟩, .wheel .update,
          .wheel .update, .wheel .dispatch, .wheel .relock]) := by
    decide +kernel
  have hbefore : (runSteps step (timerInit ⟨0, 0, by decide⟩ ⟨10, 0, by decide⟩ : ClockState Nat)
      [.timerUpdate ⟨10, 10000000, by decide⟩, .wheel .update]).map
        (fun s => (decide s.Returned, s.currentPoint)) = some (true, 1001) := by
    decide +kernel
  have hboth : (runSteps step (timerInit ⟨0, 0, by decide⟩ ⟨10, 0, by decide⟩ : ClockState Nat)
      ([.timerUpdate ⟨10, 10000000, by decide⟩, .wheel .update] ++
        [.wheel (.add ⟨2, by decide, by decide⟩ 7),
          .timerUpdate ⟨10, 30000000, by decide⟩, .wheel .update,
          .wheel .update, .wheel .dispatch, .wheel .relock])).map
        (fun s => (decide s.Returned, s.currentPoint)) = some (true, 1003) := by
    decide +kernel
  obtain ⟨s, hs, hvalues⟩ := Option.map_eq_some_iff.mp hbefore
  obtain ⟨s', hs', hvalues'⟩ := Option.map_eq_some_iff.mp hboth
  rw [runSteps_append, hs, Option.bind_some] at hs'
  obtain ⟨hreturned, hpoint⟩ := Prod.mk.inj hvalues
  obtain ⟨hreturned', hpoint'⟩ := Prod.mk.inj hvalues'
  refine ⟨s, s', hs, hs', (fires_at_first_late_reading hsteady hs
    (of_decide_eq_true hreturned) hs' (of_decide_eq_true hreturned')).mpr ?_⟩
  rw [hpoint, hpoint']
  decide

end ClockState
end Gametimer
end GameServer
