import GameServer.Lib.Transition
import GameServer.Timer.Wheel

/-!
# Runs of the timer wheel

`timer_update` holds the wheel's lock except while it dispatches a list, so
`timer_add` calls of other threads come between two updates or between two
dispatched nodes.  The step function below has one action for each section
under the lock and one for each dispatched node.

The state carries a history: the number of ticks, the nodes added and the nodes
dispatched.  The main result describes the wheel by that history alone.  Every
update dispatches exactly the nodes whose delay ends with it, in the order in
which they were added.
-/

namespace GameServer
namespace Gametimer

open Lib

variable {ε : Type*}

/-! ## What the lists hold -/

/-- The node of an event with an absolute deadline. -/
def nodeOf (p : Nat × ε) : TimerNode ε :=
  ⟨UInt32.ofNat p.1, p.2⟩

/-- The wheel at tick `now` holds the pending events, given in the order of
their addition with absolute deadlines: each list holds those the mixed-radix
wheel places there, in that order. -/
structure Timer.Holds (T : Timer ε) (now : Nat) (pending : List (Nat × ε)) :
    Prop where
  time_eq : T.time = UInt32.ofNat now
  reach : ∀ p ∈ pending, now ≤ p.1 ∧ p.1 < now + 2 ^ 31
  get_eq : ∀ list, T.get list =
    (bucket (fun p => wheelRadix.place now p.1) pending list.position).map
      nodeOf

namespace Timer.Holds

variable {T : Timer ε} {now : Nat} {pending : List (Nat × ε)}

theorem create : (Timer.create : Timer ε).Holds 0 [] where
  time_eq := rfl
  reach := by simp
  get_eq := by
    intro list
    cases list <;> rfl

/-- A list is the one `add_node` chooses for a reachable deadline exactly if
its position is where the mixed-radix wheel places the deadline. -/
theorem eq_listFor_iff {deadline : Nat} (hle : now ≤ deadline)
    (hnear : deadline < now + 2 ^ 31) (list : LinkList) :
    list = listFor (UInt32.ofNat deadline) (UInt32.ofNat now) ↔
      wheelRadix.place now deadline = list.position := by
  rw [← position_listFor hle hnear, LinkList.position_injective.eq_iff]
  exact eq_comm

/-- `timer_add` appends a pending event. -/
theorem timerAdd (h : T.Holds now pending) (event : ε) {delay : Nat} (hdelay : delay < 2 ^ 31) :
    (T.timerAdd event delay).Holds now (pending ++ [(now + delay, event)]) where
  time_eq := (Timer.time_timerAdd T event delay).trans h.time_eq
  reach := by
    intro p hp
    rcases List.mem_append.mp hp with hp | hp
    · exact h.reach p hp
    · rw [List.mem_singleton.mp hp]
      exact ⟨Nat.le_add_right _ _, Nat.add_lt_add_left hdelay now⟩
  get_eq := by
    intro list
    have hexpire : UInt32.ofNat delay + T.time = UInt32.ofNat (now + delay) := by
      rw [h.time_eq, ← UInt32.ofNat_add, Nat.add_comm]
    rw [Timer.timerAdd, hexpire, Timer.get_addNode, h.time_eq, h.get_eq, bucket_append_singleton]
    simp only [eq_listFor_iff (Nat.le_add_right now delay) (Nat.add_lt_add_left hdelay now)]
    split_ifs with hlist
    · rw [List.map_append]
      rfl
    · rfl

/-- `timer_shift` advances the time and keeps every pending event. -/
theorem timerShift (h : T.Holds now pending) (hlate : ∀ p ∈ pending, now < p.1) :
    T.timerShift.Holds (now + 1) pending := by
  have hreach : ∀ p ∈ pending, now + 1 ≤ p.1 ∧ p.1 < now + 1 + 2 ^ 31 := by
    intro p hp
    have := h.reach p hp
    have := hlate p hp
    omega
  have hwithin : ∀ p ∈ pending, wheelRadix.Within now p.1 :=
    fun p hp => within_wheelRadix (h.reach p hp).2
  rcases timerShift_cases h.time_eq with ⟨hcarry, hshift⟩ | ⟨i, idx, hposition, hshift⟩
  · rw [hshift]
    refine ⟨rfl, hreach, ?_⟩
    intro list
    show T.get list = _
    rw [h.get_eq]
    congr 1
    apply bucket_congr
    intro p hp
    exact (Radix.place_succ_of_carry_eq_zero (hlate p hp) (hwithin p hp) hcarry).symm
  · rw [hshift]
    refine ⟨Timer.time_moveList _ i idx, hreach, ?_⟩
    intro list
    have hcarry : 0 < wheelRadix.carry (now + 1) := by
      have := congrArg Prod.fst hposition
      simp only [LinkList.position] at this
      omega
    have hfilter : (T.get (.level i idx)).filter (fun node =>
          listFor node.expire (UInt32.ofNat (now + 1)) = list) =
        (bucket (fun p => wheelRadix.place (now + 1) p.1)
          (bucket (fun p => wheelRadix.place now p.1) pending
            (LinkList.level i idx).position) list.position).map nodeOf := by
      rw [h.get_eq, List.filter_map]
      congr 1
      apply List.filter_congr
      intro p hp
      obtain ⟨hmem, -⟩ := List.mem_filter.mp hp
      have hiff := eq_listFor_iff (hreach p hmem).1 (hreach p hmem).2 list
      rw [eq_comm] at hiff
      simp only [Function.comp_apply, nodeOf, hiff]
    have hbuckets := Radix.redistribute_carry hlate hwithin hcarry list.position
    simp only [← hposition, LinkList.position_injective.eq_iff] at hbuckets
    rw [Timer.get_moveList, ← hbuckets, List.map_append, ← hfilter]
    split_ifs with hlist
    · rfl
    · show T.get list ++ _ = _
      rw [h.get_eq]
      rfl

/-- The list of the current tick holds the events that are due. -/
theorem get_due (h : T.Holds now pending) :
    T.get (.near (nearIndex T.time)) =
      (pending.filter fun p => p.1 = now).map nodeOf := by
  rw [h.get_eq, h.time_eq, LinkList.position, val_nearIndex]
  congr 1
  apply List.filter_congr
  intro p hp
  obtain ⟨hle, hnear⟩ := h.reach p hp
  simp only [Radix.place_eq_due_iff hle (within_wheelRadix hnear)]

/-- Detaching the list of the current tick removes the events that are due. -/
theorem clear_due (h : T.Holds now pending) :
    (T.set (.near (nearIndex T.time)) []).Holds now
      (pending.filter fun p => p.1 ≠ now) where
  time_eq := (Timer.time_set T _ _).trans h.time_eq
  reach := fun p hp => h.reach p (List.mem_filter.mp hp).1
  get_eq := by
    intro list
    have hdue : (LinkList.near (nearIndex T.time)).position = (0, wheelRadix.digit 0 now) := by
      rw [h.time_eq, LinkList.position, val_nearIndex]
    have hkeep : ∀ p ∈ pending, decide (p.1 ≠ now) = true ↔
        wheelRadix.place now p.1 ≠ (0, wheelRadix.digit 0 now) := by
      intro p hp
      obtain ⟨hle, hnear⟩ := h.reach p hp
      rw [decide_eq_true_eq, Ne, Ne, Radix.place_eq_due_iff hle (within_wheelRadix hnear)]
    have hbucket := bucket_filter_place_ne hkeep list.position
    simp only [← hdue, LinkList.position_injective.eq_iff] at hbucket
    rw [Timer.get_set, hbucket]
    split_ifs with hlist
    · rfl
    · exact h.get_eq list

/-- Where nothing is due, the loop test ends `timer_execute`. -/
theorem executeTest_of_late (h : T.Holds now pending)
    (hlate : ∀ p ∈ pending, now < p.1) : T.executeTest = none := by
  have hnone : (pending.filter fun p => p.1 = now) = [] := by
    rw [List.filter_eq_nil_iff]
    intro p hp hdue
    have := hlate p hp
    have := of_decide_eq_true hdue
    omega
  have hget := h.get_due
  rw [hnone, List.map_nil] at hget
  simp only [Timer.executeTest, Timer.linkClear, hget, List.isEmpty_nil, if_true]

end Timer.Holds

/-! ## The step function -/

/-- A delay that `_AddTimerHandle` hands to the wheel: a positive `int`. -/
structure Delay where
  ticks : Nat
  pos : 0 < ticks
  lt : ticks < 2 ^ 31

/-- Where the thread that runs `timer_update` stands.  While it dispatches a
detached list the lock is free; `shifted` tells the second call of
`timer_execute` from the first one. -/
inductive UpdatePc (ε : Type*) where
  | idle
  | dispatching (shifted : Bool) (current : List (TimerNode ε))

/-- One call of `timer_add`: the tick at which it was made, the delay and the
event. -/
structure Addition (ε : Type*) where
  tick : Nat
  delay : Delay
  event : ε

/-- The tick at which an added event is due. -/
def Addition.deadline (a : Addition ε) : Nat := a.tick + a.delay.ticks

/-- The wheel, the position of the updating thread, and the history: the number
of ticks so far, the calls of `timer_add`, and the dispatched events with the
tick at which they were dispatched. -/
structure WheelState (ε : Type*) where
  timer : Timer ε
  pc : UpdatePc ε
  ticks : Nat
  added : List (Addition ε)
  dispatched : List (Nat × ε)

/-- The actions of the threads that share the wheel. -/
inductive WheelAction (ε : Type*) where
  /-- `timer_add`, by any thread while the lock is free. -/
  | add (delay : Delay) (event : ε)
  /-- `timer_update` is called and runs up to its first unlock. -/
  | update
  /-- `dispatch_list` hands one node to `TimerTimeout`. -/
  | dispatch
  /-- After the last node `timer_execute` takes the lock again and runs up to
  the next unlock. -/
  | relock

/-- Whether an action starts an update. -/
def WheelAction.isUpdate : WheelAction ε → Bool
  | .update => true
  | _ => false

theorem WheelAction.isUpdate_iff {a : WheelAction ε} : a.isUpdate = true ↔ a = .update := by
  cases a <;> simp [isUpdate]

/-- What an action adds at a tick. -/
def WheelAction.additions (tick : Nat) : WheelAction ε → List (Addition ε)
  | .add delay event => [⟨tick, delay, event⟩]
  | _ => []

/-- The calls of `timer_add` among the actions that follow a tick.  An update
begins the next tick. -/
def additions (tick : Nat) : List (WheelAction ε) → List (Addition ε)
  | [] => []
  | a :: rest =>
    a.additions tick ++ additions (if a.isUpdate then tick + 1 else tick) rest

namespace WheelState

/-- A fresh timer. -/
def fresh : WheelState ε := ⟨.create, .idle, 0, [], []⟩

/-- The second `timer_execute` of `timer_update`, from its loop test on. -/
def secondExecute (s : WheelState ε) : WheelState ε :=
  match s.timer.executeTest with
  | none => { s with pc := .idle }
  | some (T, current) => { s with timer := T, pc := .dispatching true current }

/-- The first `timer_execute` of `timer_update`, from its loop test on, with
the `timer_shift` that follows it. -/
def firstExecute (s : WheelState ε) : WheelState ε :=
  match s.timer.executeTest with
  | none => secondExecute
      { s with timer := s.timer.timerShift, ticks := s.ticks + 1 }
  | some (T, current) => { s with timer := T, pc := .dispatching false current }

/-- One action.  `none` means that it is not enabled. -/
def step (s : WheelState ε) : WheelAction ε → Option (WheelState ε)
  | .add delay event =>
    some { s with
      timer := s.timer.timerAdd event delay.ticks
      added := s.added ++ [⟨s.ticks, delay, event⟩] }
  | .update =>
    match s.pc with
    | .idle => some s.firstExecute
    | .dispatching _ _ => none
  | .dispatch =>
    match s.pc with
    | .dispatching shifted (node :: rest) =>
      some { s with
        pc := .dispatching shifted rest
        dispatched := s.dispatched ++ [(s.ticks, node.event)] }
    | _ => none
  | .relock =>
    match s.pc with
    | .dispatching shifted [] =>
      some (if shifted then s.secondExecute else s.firstExecute)
    | _ => none

/-- Everything a step can be. -/
theorem step_cases {s s' : WheelState ε} {a : WheelAction ε} (h : s.step a = some s') :
    (∃ delay event, a = .add delay event ∧ s' = { s with
          timer := s.timer.timerAdd event delay.ticks
          added := s.added ++ [⟨s.ticks, delay, event⟩] }) ∨
      (a = .update ∧ s.pc = .idle ∧ s' = s.firstExecute) ∨
      (∃ shifted node rest, a = .dispatch ∧ s.pc = .dispatching shifted (node :: rest) ∧
        s' = { s with
          pc := .dispatching shifted rest
          dispatched := s.dispatched ++ [(s.ticks, node.event)] }) ∨
      ∃ shifted, a = .relock ∧ s.pc = .dispatching shifted [] ∧
        s' = if shifted then s.secondExecute else s.firstExecute := by
  cases a with
  | add delay event =>
    cases h
    exact Or.inl ⟨delay, event, rfl, rfl⟩
  | update =>
    simp only [step] at h
    split at h
    · rename_i hpc
      cases h
      exact Or.inr (Or.inl ⟨rfl, hpc, rfl⟩)
    · cases h
  | dispatch =>
    simp only [step] at h
    split at h
    · rename_i shifted node rest hpc
      cases h
      exact Or.inr (Or.inr (Or.inl ⟨shifted, node, rest, rfl, hpc, rfl⟩))
    · cases h
  | relock =>
    simp only [step] at h
    split at h
    · rename_i shifted hpc
      cases h
      exact Or.inr (Or.inr (Or.inr ⟨shifted, rfl, hpc, rfl⟩))
    · cases h

theorem added_secondExecute (s : WheelState ε) : s.secondExecute.added = s.added := by
  unfold secondExecute
  split <;> rfl

theorem added_firstExecute (s : WheelState ε) : s.firstExecute.added = s.added := by
  unfold firstExecute
  split
  · exact added_secondExecute _
  · rfl

/-- Only `timer_add` adds nodes. -/
theorem added_step {s s' : WheelState ε} {a : WheelAction ε}
    (h : s.step a = some s') : s'.added = s.added ++ a.additions s.ticks := by
  obtain ⟨delay, event, rfl, rfl⟩ | ⟨rfl, -, rfl⟩ |
    ⟨shifted, node, rest, rfl, -, rfl⟩ | ⟨shifted, rfl, -, rfl⟩ := step_cases h
  · rfl
  · rw [added_firstExecute]
    exact (List.append_nil _).symm
  · exact (List.append_nil _).symm
  · cases shifted with
    | true =>
      rw [if_pos rfl, added_secondExecute]
      exact (List.append_nil _).symm
    | false =>
      rw [if_neg Bool.false_ne_true, added_firstExecute]
      exact (List.append_nil _).symm

theorem length_added_step {s s' : WheelState ε} {a : WheelAction ε} (h : s.step a = some s') :
    s'.added.length = s.added.length + (a.additions s.ticks).length := by
  rw [added_step h, List.length_append]

/-- The deadlines of everything added so far, in the order of addition. -/
def deadlines (s : WheelState ε) : List (Nat × ε) :=
  s.added.map fun a => (a.deadline, a.event)

/-- The events whose delay ends with tick `k`, in the order of addition. -/
def dueIn (s : WheelState ε) (k : Nat) : List ε :=
  (s.deadlines.filter fun p => p.1 = k).map Prod.snd

/-- The events dispatched during tick `k`, in the order of dispatch. -/
def dispatchedIn (s : WheelState ε) (k : Nat) : List ε :=
  (s.dispatched.filter fun p => p.1 = k).map Prod.snd

/-- The events of the detached list that are still to be dispatched. -/
def remaining (s : WheelState ε) : List ε :=
  match s.pc with
  | .idle => []
  | .dispatching _ current => current.map TimerNode.event

/-- The wheel holds what is due later, the updates so far have dispatched what
was due in them, and the update under way is about to finish the rest. -/
structure Inv (s : WheelState ε) : Prop where
  holds : s.timer.Holds s.ticks
    (s.deadlines.filter fun p => s.ticks < p.1)
  past : ∀ k, k < s.ticks → s.dispatchedIn k = s.dueIn k
  present : s.dispatchedIn s.ticks ++ s.remaining = s.dueIn s.ticks
  future : ∀ p ∈ s.dispatched, p.1 ≤ s.ticks
  shifted : ∀ current, s.pc ≠ .dispatching false current

theorem inv_fresh : (fresh : WheelState ε).Inv where
  holds := Timer.Holds.create
  past := by
    intro k hk
    exact (Nat.not_lt_zero k hk).elim
  present := rfl
  future := by
    intro p hp
    cases hp
  shifted := by
    intro current hpc
    cases hpc

section Steps

variable {s : WheelState ε} {shifted : Bool}

/-- What is pending is not due yet. -/
theorem late_of_mem_pending {p : Nat × ε}
    (hp : p ∈ s.deadlines.filter fun p => s.ticks < p.1) : s.ticks < p.1 :=
  of_decide_eq_true (List.mem_filter.mp hp).2

/-- Nothing is dispatched in a tick that has not come. -/
theorem Inv.dispatchedIn_of_lt (h : s.Inv) {k : Nat} (hk : s.ticks < k) :
    s.dispatchedIn k = [] := by
  rw [dispatchedIn, List.map_eq_nil_iff, List.filter_eq_nil_iff]
  intro p hp hdue
  have := h.future p hp
  have := of_decide_eq_true hdue
  omega

/-- An addition is the last deadline. -/
theorem deadlines_of_added {s' : WheelState ε} {delay : Delay} {event : ε}
    (hadded : s'.added = s.added ++ [⟨s.ticks, delay, event⟩]) :
    s'.deadlines = s.deadlines ++ [(s.ticks + delay.ticks, event)] := by
  rw [deadlines, hadded, List.map_append]
  rfl

theorem Inv.add (h : s.Inv) (delay : Delay) (event : ε) :
    Inv { s with
      timer := s.timer.timerAdd event delay.ticks
      added := s.added ++ [⟨s.ticks, delay, event⟩] } := by
  have hpos := delay.pos
  have hdeadlines : deadlines { s with
      timer := s.timer.timerAdd event delay.ticks
      added := s.added ++ [⟨s.ticks, delay, event⟩] } =
        s.deadlines ++ [(s.ticks + delay.ticks, event)] :=
    deadlines_of_added rfl
  have hdue : ∀ k, k ≤ s.ticks → dueIn { s with
      timer := s.timer.timerAdd event delay.ticks
      added := s.added ++ [⟨s.ticks, delay, event⟩] } k = s.dueIn k := by
    intro k hk
    have hne : ¬ s.ticks + delay.ticks = k := by omega
    rw [dueIn, dueIn, hdeadlines]
    simp [hne]
  refine ⟨?_, ?_, ?_, h.future, h.shifted⟩
  · rw [hdeadlines, List.filter_append]
    have hlate : ([(s.ticks + delay.ticks, event)].filter fun p : Nat × ε => s.ticks < p.1) =
          [(s.ticks + delay.ticks, event)] := by
      simp [hpos]
    rw [hlate]
    exact h.holds.timerAdd event delay.lt
  · intro k hk
    rw [hdue k (Nat.le_of_lt hk)]
    exact h.past k hk
  · rw [hdue s.ticks (le_refl _)]
    exact h.present

/-- The second `timer_execute`, after the shift to a tick in which nothing has
been dispatched yet: it detaches what is due in the tick, all at once. -/
theorem inv_secondExecute (hholds : s.timer.Holds s.ticks
      (s.deadlines.filter fun p => s.ticks ≤ p.1))
    (hpast : ∀ k, k < s.ticks → s.dispatchedIn k = s.dueIn k)
    (hfuture : ∀ p ∈ s.dispatched, p.1 < s.ticks) : s.secondExecute.Inv := by
  have hnone : s.dispatchedIn s.ticks = [] := by
    rw [dispatchedIn, List.map_eq_nil_iff, List.filter_eq_nil_iff]
    intro p hp hdue
    have := hfuture p hp
    have := of_decide_eq_true hdue
    omega
  have hdue : s.timer.get (.near (nearIndex s.timer.time)) =
      (s.deadlines.filter fun p => p.1 = s.ticks).map nodeOf := by
    rw [hholds.get_due, List.filter_filter]
    congr 1
    apply List.filter_congr
    intro p _
    by_cases hp : p.1 = s.ticks
    · simp [hp]
    · simp [hp]
  have hlater : (s.deadlines.filter fun p => s.ticks ≤ p.1).filter
      (fun p => p.1 ≠ s.ticks) = s.deadlines.filter fun p => s.ticks < p.1 := by
    rw [List.filter_filter]
    apply List.filter_congr
    intro p _
    rw [Bool.eq_iff_iff, Bool.and_eq_true, decide_eq_true_eq, decide_eq_true_eq, decide_eq_true_eq]
    omega
  have hcleared := hholds.clear_due
  rw [hlater] at hcleared
  unfold secondExecute Timer.executeTest Timer.linkClear
  by_cases hempty : (s.deadlines.filter fun p => p.1 = s.ticks) = []
  · rw [hempty, List.map_nil] at hdue
    simp only [hdue, List.isEmpty_nil, if_true]
    refine ⟨?_, hpast, ?_, fun p hp => (hfuture p hp).le, ?_⟩
    · -- nothing is due, so what is due at all is due later
      have hsame : (s.deadlines.filter fun p => s.ticks ≤ p.1) =
          s.deadlines.filter fun p => s.ticks < p.1 := by
        apply List.filter_congr
        intro p hp
        have hne : p.1 ≠ s.ticks := by
          intro heq
          exact List.filter_eq_nil_iff.mp hempty p hp (decide_eq_true heq)
        rw [Bool.eq_iff_iff, decide_eq_true_eq, decide_eq_true_eq]
        omega
      rw [hsame] at hholds
      exact hholds
    · show s.dispatchedIn s.ticks ++ [] = s.dueIn s.ticks
      rw [hnone, dueIn, hempty]
      rfl
    · intro current hpc
      cases hpc
  · have hsome : (s.timer.get (.near (nearIndex s.timer.time))).isEmpty =
        false := by
      rw [hdue, List.isEmpty_eq_false_iff]
      simpa using hempty
    simp only [hsome, Bool.false_eq_true, if_false]
    refine ⟨hcleared, hpast, ?_, fun p hp => (hfuture p hp).le, ?_⟩
    · show s.dispatchedIn s.ticks ++ (s.timer.get _).map TimerNode.event = s.dueIn s.ticks
      rw [hnone, hdue, List.nil_append, List.map_map]
      rfl
    · intro current hpc
      cases hpc

/-- An update that starts finds nothing to dispatch before the shift. -/
theorem Inv.firstExecute (h : s.Inv) (hidle : s.pc = .idle) :
    s.firstExecute.Inv := by
  have hshift := h.holds.timerShift fun p hp => late_of_mem_pending hp
  unfold WheelState.firstExecute
  rw [h.holds.executeTest_of_late fun p hp => late_of_mem_pending hp]
  apply inv_secondExecute
  · exact hshift
  · intro k hk
    rcases Nat.lt_succ_iff_lt_or_eq.mp hk with hlt | rfl
    · exact h.past k hlt
    · -- the previous update has left nothing over
      have hpresent := h.present
      rw [remaining, hidle, List.append_nil] at hpresent
      exact hpresent
  · intro p hp
    exact Nat.lt_succ_of_le (h.future p hp)

/-- Dispatching a node moves its event from the rest of the list to the
history. -/
theorem Inv.dispatch (h : s.Inv) {node : TimerNode ε}
    {rest : List (TimerNode ε)}
    (hpc : s.pc = .dispatching shifted (node :: rest)) :
    Inv { s with
      pc := .dispatching shifted rest
      dispatched := s.dispatched ++ [(s.ticks, node.event)] } := by
  have hpresent := h.present
  rw [remaining, hpc] at hpresent
  refine ⟨h.holds, ?_, ?_, ?_, ?_⟩
  · intro k hk
    have hne : ¬ s.ticks = k := Nat.ne_of_gt hk
    rw [dispatchedIn, List.filter_append, List.map_append]
    simp only [hne, decide_false, List.filter_cons, List.filter_nil,
      Bool.false_eq_true, if_false, List.map_nil, List.append_nil]
    exact h.past k hk
  · rw [dispatchedIn, List.filter_append, List.map_append]
    simp only [decide_true, List.filter_cons, List.filter_nil, if_true, List.map_cons, List.map_nil]
    show s.dispatchedIn s.ticks ++ [node.event] ++ rest.map TimerNode.event = s.dueIn s.ticks
    rw [List.append_assoc, ← hpresent]
    rfl
  · intro p hp
    rcases List.mem_append.mp hp with hp | hp
    · exact h.future p hp
    · rw [List.mem_singleton.mp hp]
  · intro current heq
    injection heq with hshifted
    rw [hshifted] at hpc
    exact h.shifted _ hpc

/-- After the last node of the list nothing more is due: adds made in the
meantime have gone to later lists. -/
theorem Inv.relock (h : s.Inv) (hpc : s.pc = .dispatching shifted []) :
    shifted = true ∧ s.secondExecute = { s with pc := .idle } := by
  constructor
  · cases shifted with
    | true => rfl
    | false => exact (h.shifted [] hpc).elim
  · rw [secondExecute, h.holds.executeTest_of_late fun p hp => late_of_mem_pending hp]

theorem Inv.idle (h : s.Inv) (hpc : s.pc = .dispatching shifted []) :
    Inv { s with pc := .idle } := by
  refine ⟨h.holds, h.past, ?_, h.future, ?_⟩
  · have hpresent := h.present
    rw [remaining, hpc] at hpresent
    exact hpresent
  · intro current heq
    cases heq

/-- Every action preserves the invariant. -/
theorem inv_step (s : WheelState ε) (a : WheelAction ε) (s' : WheelState ε)
    (h : s.Inv) (hstep : s.step a = some s') : s'.Inv := by
  obtain ⟨delay, event, -, rfl⟩ | ⟨-, hpc, rfl⟩ |
    ⟨shifted, node, rest, -, hpc, rfl⟩ | ⟨shifted, -, hpc, rfl⟩ :=
    step_cases hstep
  · exact h.add delay event
  · exact h.firstExecute hpc
  · exact h.dispatch hpc
  · obtain ⟨rfl, hexecute⟩ := h.relock hpc
    rw [if_pos rfl, hexecute]
    exact h.idle hpc

/-- An update that starts advances the time by one tick and leaves the history
of additions and dispatches as it is. -/
theorem Inv.step_update (h : s.Inv) (hidle : s.pc = .idle) :
    ∃ s', s.step .update = some s' ∧ s'.ticks = s.ticks + 1 ∧
      s'.added = s.added ∧ s'.dispatched = s.dispatched := by
  refine ⟨s.firstExecute, by rw [step, hidle], ?_⟩
  unfold WheelState.firstExecute
  rw [h.holds.executeTest_of_late fun p hp => late_of_mem_pending hp]
  unfold secondExecute
  dsimp only
  split <;> exact ⟨rfl, rfl, rfl⟩

/-- Only an update moves the wheel on, by one tick. -/
theorem Inv.ticks_step (h : s.Inv) {a : WheelAction ε} (hstep : s.step a = some s') :
    s'.ticks = if a.isUpdate then s.ticks + 1 else s.ticks := by
  obtain ⟨delay, event, rfl, rfl⟩ | ⟨rfl, hpc, -⟩ |
    ⟨shifted, node, rest, rfl, hpc, rfl⟩ | ⟨shifted, rfl, hpc, rfl⟩ :=
    step_cases hstep
  · rfl
  · obtain ⟨s'', hupdate, hticks, -⟩ := h.step_update hpc
    rw [hstep, Option.some.injEq] at hupdate
    rw [hupdate]
    exact hticks
  · rfl
  · obtain ⟨rfl, hexecute⟩ := h.relock hpc
    rw [if_pos rfl, hexecute]
    rfl

/-- The history of a run is what its actions say. -/
theorem Inv.history_run (h : s.Inv) {actions : List (WheelAction ε)}
    (hrun : runSteps step s actions = some s') :
    s'.ticks = s.ticks + actions.countP WheelAction.isUpdate ∧
      s'.added = s.added ++ additions s.ticks actions := by
  induction actions generalizing s with
  | nil =>
    cases hrun
    exact ⟨rfl, (List.append_nil _).symm⟩
  | cons a rest ih =>
    obtain ⟨s₁, hstep, hrest⟩ := runSteps_cons_eq_some_iff.mp hrun
    -- an update makes the tick from which the rest is counted
    obtain ⟨hticks, hadded⟩ := ih (inv_step s a s₁ h hstep) hrest
    rw [hticks, hadded, added_step hstep, h.ticks_step hstep,
      List.countP_cons, additions, List.append_assoc]
    refine ⟨?_, rfl⟩
    split_ifs <;> omega

/-- A dispatched event was added for the tick of its dispatch. -/
theorem Inv.mem_deadlines_of_dispatched (h : s.Inv) {p : Nat × ε}
    (hp : p ∈ s.dispatched) : p ∈ s.deadlines := by
  have hmem : p.2 ∈ s.dispatchedIn p.1 :=
    List.mem_map.mpr ⟨p, List.mem_filter.mpr ⟨hp, decide_eq_true rfl⟩, rfl⟩
  have hdue : p.2 ∈ s.dueIn p.1 := by
    rcases Nat.lt_or_eq_of_le (h.future p hp) with hlt | heq
    · rw [← h.past p.1 hlt]
      exact hmem
    · rw [heq, ← h.present, ← heq]
      exact List.mem_append_left _ hmem
  obtain ⟨q, hq, hevent⟩ := List.mem_map.mp hdue
  obtain ⟨hmemq, htick⟩ := List.mem_filter.mp hq
  have hpq : q = p := Prod.ext (of_decide_eq_true htick) hevent
  rwa [hpq] at hmemq

/-- What was due by now and is not among the rest of the list has been
dispatched. -/
theorem Inv.dispatched_of_due (h : s.Inv) {p : Nat × ε}
    (hp : p ∈ s.deadlines) (hdue : p.1 ≤ s.ticks)
    (hrest : p.1 = s.ticks → p.2 ∉ s.remaining) : p ∈ s.dispatched := by
  have hmem : p.2 ∈ s.dueIn p.1 :=
    List.mem_map.mpr ⟨p, List.mem_filter.mpr ⟨hp, decide_eq_true rfl⟩, rfl⟩
  have hdispatched : p.2 ∈ s.dispatchedIn p.1 := by
    rcases Nat.lt_or_eq_of_le hdue with hlt | heq
    · rw [h.past p.1 hlt]
      exact hmem
    · rw [heq, ← h.present, ← heq] at hmem
      exact (List.mem_append.mp hmem).resolve_right (hrest heq)
  obtain ⟨q, hq, hevent⟩ := List.mem_map.mp hdispatched
  obtain ⟨hmemq, htick⟩ := List.mem_filter.mp hq
  have hpq : q = p := Prod.ext (of_decide_eq_true htick) hevent
  rwa [hpq] at hmemq

/-- An update under way ends once the rest of its list is dispatched. -/
theorem Inv.completes (h : s.Inv) {current : List (TimerNode ε)}
    (hpc : s.pc = .dispatching shifted current) :
    ∃ s', runSteps step s (List.replicate current.length .dispatch ++ [.relock]) = some s' ∧
      s'.pc = .idle ∧ s'.ticks = s.ticks := by
  induction current generalizing s with
  | nil =>
    obtain ⟨rfl, hexecute⟩ := h.relock hpc
    refine ⟨{ s with pc := .idle }, ?_, rfl, rfl⟩
    show runSteps step s [.relock] = _
    rw [runSteps_cons, step, hpc]
    simp only [if_true, hexecute, Option.bind_some, runSteps_nil]
  | cons node rest ih =>
    obtain ⟨s', hrun, hidle, hticks⟩ := ih (h.dispatch hpc) rfl
    refine ⟨s', ?_, hidle, hticks⟩
    rw [List.length_cons, List.replicate_succ, List.cons_append, runSteps_cons, step, hpc]
    exact hrun

end Steps

/-- **The wheel dispatches on time and in order.**  In every run, with adds
between and during updates and any number of ticks:

* there are as many ticks as updates have been started, the additions are the
  calls of `timer_add` with their ticks, and the counter is the number of ticks
  modulo 2^32;
* a finished update has dispatched exactly the events whose delay ends with its
  tick, in the order in which they were added;
* an update under way has dispatched a front part of them, all after its shift,
  and ends when the rest is dispatched;
* no event is dispatched ahead of its tick. -/
theorem dispatches_on_time (actions : List (WheelAction ε)) (s : WheelState ε)
    (hrun : runSteps step fresh actions = some s) :
    s.ticks = actions.countP WheelAction.isUpdate ∧
      s.added = additions 0 actions ∧
      s.timer.time.toNat = s.ticks % 2 ^ 32 ∧
      (∀ k, k < s.ticks → s.dispatchedIn k = s.dueIn k) ∧
      s.dispatchedIn s.ticks ++ s.remaining = s.dueIn s.ticks ∧
      (∀ k, s.ticks < k → s.dispatchedIn k = []) ∧
      (∀ shifted current, s.pc = .dispatching shifted current →
        shifted = true ∧
        ∃ s', runSteps step s
            (List.replicate current.length .dispatch ++ [.relock]) =
              some s' ∧
          s'.pc = .idle ∧ s'.ticks = s.ticks) := by
  have hinv : s.Inv := runSteps_invariant inv_step inv_fresh hrun
  obtain ⟨hticks, hadded⟩ := inv_fresh.history_run hrun
  refine ⟨hticks.trans (Nat.zero_add _), hadded, ?_, hinv.past, hinv.present,
    fun k hk => hinv.dispatchedIn_of_lt hk, ?_⟩
  · rw [hinv.holds.time_eq, UInt32.toNat_ofNat']
  · intro shifted current hpc
    refine ⟨?_, hinv.completes hpc⟩
    cases shifted with
    | true => rfl
    | false => exact (hinv.shifted current hpc).elim

/-- Two events for the first tick, one of them behind an event for the second,
and one that is added during the first update. -/
theorem dispatches_on_time_two_updates :
    ∃ s : WheelState Nat, runSteps step fresh
        [.add ⟨1, by decide, by decide⟩ 7, .add ⟨2, by decide, by decide⟩ 5,
          .add ⟨1, by decide, by decide⟩ 9, .update,
          .add ⟨1, by decide, by decide⟩ 8, .dispatch, .dispatch, .relock,
          .update] = some s ∧
      s.ticks = 2 ∧ s.dispatchedIn 1 = [7, 9] ∧ s.remaining = [5, 8] := by
  obtain ⟨s, hrun⟩ : ∃ s : WheelState Nat, runSteps step fresh
      [.add ⟨1, by decide, by decide⟩ 7, .add ⟨2, by decide, by decide⟩ 5,
        .add ⟨1, by decide, by decide⟩ 9, .update,
        .add ⟨1, by decide, by decide⟩ 8, .dispatch, .dispatch, .relock,
        .update] = some s := ⟨_, rfl⟩
  obtain ⟨hticks, hadded, -, hpast, hpresent, -, -⟩ :=
    dispatches_on_time _ s hrun
  have htwo : s.ticks = 2 := hticks
  have hnone : s.dispatchedIn 2 = [] := by
    cases hrun
    rfl
  rw [htwo, hnone, List.nil_append, dueIn, deadlines, hadded] at hpresent
  have hfirst := hpast 1 (by omega)
  rw [dueIn, deadlines, hadded] at hfirst
  exact ⟨s, hrun, htwo, hfirst, hpresent⟩

end WheelState

end Gametimer
end GameServer
