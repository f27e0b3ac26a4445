import GameServer.Lib.LinkedList
import GameServer.Timer.WheelRun

/-!
# The nodes of the timer wheel

`Timer.Wheel` keeps the nodes of a list in list order.  In `timer.cpp` they are
blocks of memory that point to one another: `link` lets the last node point to
the new one, `link_clear` returns the first node, `move_list` follows the `next`
pointers while `add_node` changes them, and `dispatch_list` frees each node
after it has been handed to `TimerTimeout`.  Here the same operations are
modelled on the pointers.

A list head is itself a node, to which `tail` points while the list is empty;
that pointer is `none`.  An access to a node that is not allocated, and a
loop that meets more nodes than there are, end the run.

`refines_wheel` says that none of this happens, and that the run does what the
wheel of lists does.
-/

namespace GameServer
namespace Gametimer

open Lib

variable {A ε : Type*} [DecidableEq A]

/-- `link_list`: `head.next` and `tail`. -/
structure LinkHead (A : Type*) where
  head : Option A
  tail : Option A

/-- `struct timer`, and the memory of its nodes. -/
structure NodeTimer (A ε : Type*) where
  heap : Heap A (TimerNode ε)
  lists : LinkList → LinkHead A
  time : UInt32

namespace NodeTimer

/-- `link_clear`, with the node it returns. -/
def linkClear (T : NodeTimer A ε) (list : LinkList) :
    NodeTimer A ε × Option A :=
  ({ T with lists := Function.update T.lists list ⟨none, none⟩ },
    (T.lists list).head)

/-- `link`. -/
def link (T : NodeTimer A ε) (list : LinkList) (node : A) :
    Option (NodeTimer A ε) :=
  (linkBlock T.heap (T.lists list).head (T.lists list).tail node).map
    fun linked =>
      { T with
        heap := linked.1
        lists := Function.update T.lists list ⟨linked.2, some node⟩ }

/-- `add_node`. -/
def addNode (T : NodeTimer A ε) (node : A) : Option (NodeTimer A ε) :=
  (T.heap.read node).bind fun cell =>
    T.link (listFor cell.value.expire T.time) node

/-- `timer_add`.  The block that `malloc` returns holds some `next`. -/
def timerAdd (T : NodeTimer A ε) (node : A) (next : Option A) (event : ε)
    (time : Nat) : Option (NodeTimer A ε) :=
  (T.heap.malloc node ⟨next, ⟨UInt32.ofNat time + T.time, event⟩⟩).bind
    fun heap => { T with heap := heap }.addNode node

/-- The loop of `move_list`. -/
def moveLoop : Nat → NodeTimer A ε → Option A → Option (NodeTimer A ε)
  | _, T, none => some T
  | 0, _, some _ => none
  | fuel + 1, T, some current =>
    (T.heap.read current).bind fun cell =>
      (T.addNode current).bind fun T => moveLoop fuel T cell.next

/-- `move_list`. -/
def moveList (T : NodeTimer A ε) (level : Fin 4) (idx : Fin timeLevel) :
    Option (NodeTimer A ε) :=
  let cleared := T.linkClear (.level level idx)
  moveLoop T.heap.blocks.length cleared.1 cleared.2

theorem timeLevel_pos : 0 < timeLevel := by decide

/-- `timer_shift`. -/
def timerShift (T : NodeTimer A ε) : Option (NodeTimer A ε) :=
  let ct := T.time + 1
  let T := { T with time := ct }
  if ct = 0 then
    T.moveList (Fin.last 3) ⟨0, timeLevel_pos⟩
  else
    match Timer.shiftLoop ct (List.finRange 4) (UInt32.ofNat timeNear)
        (ct >>> timeNearShift) with
    | none => some T
    | some (i, idx) => T.moveList i idx

/-- The loop test of `timer_execute`, and `link_clear` if it holds. -/
def executeTest (T : NodeTimer A ε) : Option (NodeTimer A ε × Option A) :=
  let cleared := T.linkClear (.near (nearIndex T.time))
  if cleared.2 = none then none else some cleared

end NodeTimer

/-- Where the thread that runs `timer_update` stands; `current` is the pointer of
`dispatch_list`. -/
inductive NodePc (A : Type*) where
  | idle
  | dispatching (shifted : Bool) (current : Option A)

/-- As `WheelState`, with the nodes in memory. -/
structure NodeState (A ε : Type*) where
  timer : NodeTimer A ε
  pc : NodePc A
  ticks : Nat
  added : List (Addition ε)
  dispatched : List (Nat × ε)

/-- As `WheelAction`; an addition names the block that `malloc` returns and what
it holds. -/
inductive NodeAction (A ε : Type*) where
  | add (node : A) (next : Option A) (delay : Delay) (event : ε)
  | update
  | dispatch
  | relock

/-- The action of the wheel. -/
def NodeAction.onWheel : NodeAction A ε → WheelAction ε
  | .add _ _ delay event => .add delay event
  | .update => .update
  | .dispatch => .dispatch
  | .relock => .relock

namespace NodeState

/-- `timer_create_timer`; nothing is allocated. -/
def fresh (cells : A → Cell A (TimerNode ε)) : NodeState A ε :=
  ⟨⟨⟨cells, []⟩, fun _ => ⟨none, none⟩, 0⟩, .idle, 0, [], []⟩

/-- The second `timer_execute` of `timer_update`. -/
def secondExecute (s : NodeState A ε) : NodeState A ε :=
  match s.timer.executeTest with
  | none => { s with pc := .idle }
  | some (T, current) => { s with timer := T, pc := .dispatching true current }

/-- The first `timer_execute` of `timer_update`, and `timer_shift`. -/
def firstExecute (s : NodeState A ε) : Option (NodeState A ε) :=
  match s.timer.executeTest with
  | none => s.timer.timerShift.map fun T =>
    secondExecute { s with timer := T, ticks := s.ticks + 1 }
  | some (T, current) =>
    some { s with timer := T, pc := .dispatching false current }

/-- One action. -/
def step (s : NodeState A ε) : NodeAction A ε → Option (NodeState A ε)
  | .add node next delay event =>
    (s.timer.timerAdd node next event delay.ticks).map fun T =>
      { s with
        timer := T
        added := s.added ++ [⟨s.ticks, delay, event⟩] }
  | .update =>
    match s.pc with
    | .idle => s.firstExecute
    | .dispatching _ _ => none
  | .dispatch =>
    match s.pc with
    | .dispatching shifted (some current) =>
      (s.timer.heap.read current).bind fun cell =>
        (s.timer.heap.free current).map fun heap =>
          { s with
            timer := { s.timer with heap := heap }
            pc := .dispatching shifted cell.next
            dispatched :=
              s.dispatched ++ [(s.ticks, cell.value.event)] }
    | _ => none
  | .relock =>
    match s.pc with
    | .dispatching shifted none =>
      if shifted then some s.secondExecute else s.firstExecute
    | _ => none

end NodeState

/-! ## What the nodes stand for -/

namespace NodeTimer

variable {T : NodeTimer A ε} {W : Timer ε} {current : Option A}
  {addrs : Option LinkList → List A} {nodes : List (TimerNode ε)}

/-- The heads of the lists, and of the list that has been detached. -/
def heads (T : NodeTimer A ε) (current : Option A) :
    Option LinkList → Option A
  | none => current
  | some list => (T.lists list).head

/-- The nodes in memory are those of the wheel `W` and of a detached list; one
node may be in between. -/
structure Rep (T : NodeTimer A ε) (current loose : Option A)
    (addrs : Option LinkList → List A) (W : Timer ε)
    (nodes : List (TimerNode ε)) : Prop where
  layout : Layout T.heap (T.heads current) addrs loose
  tails : ∀ list, (T.lists list).tail = (addrs (some list)).getLast?
  values : ∀ list, (addrs (some list)).map T.heap.value = W.get list
  detached : (addrs none).map T.heap.value = nodes
  time : T.time = W.time

omit [DecidableEq A] in
/-- A list is detached. -/
theorem Rep.linkClear (h : Rep T none none addrs W []) (list : LinkList) :
    ∃ addrs', Rep (T.linkClear list).1 (T.linkClear list).2 none addrs'
      (W.linkClear list).1 (W.linkClear list).2 := by
  have hnone : addrs none = [] := List.map_eq_nil_iff.mp h.detached
  have hheads : (T.linkClear list).1.heads (T.linkClear list).2 =
      Function.update (Function.update (T.heads none) none
        (T.heads none (some list))) (some list) none := by
    funext i
    cases i with
    | none => simp [heads, NodeTimer.linkClear]
    | some other =>
      by_cases hother : other = list
      · subst hother
        simp [heads, NodeTimer.linkClear]
      · simp [heads, NodeTimer.linkClear, hother]
  refine ⟨Function.update (Function.update addrs none (addrs (some list)))
    (some list) [], ?_, ?_, ?_, ?_, h.time.trans (Timer.time_set ..).symm⟩
  · rw [hheads]
    exact h.layout.hand (some list) hnone
  · intro other
    by_cases hother : other = list
    · subst hother
      simp [NodeTimer.linkClear]
    · simp [NodeTimer.linkClear, hother, h.tails other]
  · intro other
    by_cases hother : other = list
    · subst hother
      simp [NodeTimer.linkClear, Timer.linkClear]
    · simpa [NodeTimer.linkClear, Timer.linkClear, hother] using h.values other
  · simpa [NodeTimer.linkClear, Timer.linkClear] using h.values list

omit [DecidableEq A] in
/-- The first node of the detached list is taken off. -/
theorem Rep.pop {node : TimerNode ε}
    (h : Rep T current none addrs W (node :: nodes)) :
    ∃ a, current = some a ∧ a ∈ T.heap.blocks ∧ T.heap.value a = node ∧
      ∃ addrs', Rep T (T.heap.cells a).next (some a) addrs' W nodes := by
  obtain ⟨a, rest, hnone, hvalue, hrest⟩ := List.map_eq_cons_iff.mp h.detached
  have hchain := h.layout.chain none
  rw [hnone] at hchain
  have hheads : T.heads (T.heap.cells a).next =
      Function.update (T.heads current) none (T.heap.cells a).next := by
    funext i
    cases i <;> simp [heads]
  refine ⟨a, hchain.1, hchain.2.1, hvalue, Function.update addrs none rest,
    ?_, ?_, ?_, ?_, h.time⟩
  · rw [hheads]
    exact h.layout.pop hnone
  · simpa using h.tails
  · simpa using h.values
  · simpa using hrest

/-- The loose node is linked to a list. -/
theorem Rep.link {a : A} (h : Rep T current (some a) addrs W nodes) (list : LinkList) :
    ∃ T' addrs', T.link list a = some T' ∧ T'.heap.blocks = T.heap.blocks ∧
      (∀ b, T'.heap.value b = T.heap.value b) ∧
      Rep T' current none addrs' (W.link list (T.heap.value a)) nodes := by
  obtain ⟨heap, head, hlink, hblocks, hvalue, hlayout⟩ :=
    h.layout.link (some list)
  have hfun : heap.value = T.heap.value := funext hvalue
  refine ⟨{ T with
      heap := heap
      lists := Function.update T.lists list ⟨head, some a⟩ },
    Function.update addrs (some list) (addrs (some list) ++ [a]), ?_, hblocks,
    hvalue, ?_, ?_, ?_, ?_, h.time.trans (Timer.time_set ..).symm⟩
  · rw [NodeTimer.link, h.tails list]
    simp only [heads] at hlink
    rw [hlink, Option.map_some]
  · convert hlayout using 1
    funext i
    cases i with
    | none => simp [heads]
    | some other =>
      by_cases hother : other = list
      · subst hother
        simp [heads]
      · simp [heads, hother]
  · intro other
    by_cases hother : other = list
    · subst hother
      simp
    · simp [hother, h.tails other]
  · intro other
    rw [hfun]
    by_cases hother : other = list
    · subst hother
      simp [Timer.link, ← h.values other]
    · simpa [Timer.link, hother] using h.values other
  · rw [hfun]
    simpa using h.detached

/-- `add_node` of the loose node. -/
theorem Rep.addNode {a : A} (h : Rep T current (some a) addrs W nodes) :
    ∃ T' addrs', T.addNode a = some T' ∧ T'.heap.blocks = T.heap.blocks ∧
      (∀ b, T'.heap.value b = T.heap.value b) ∧
      Rep T' current none addrs' (W.addNode (T.heap.value a)) nodes := by
  rw [NodeTimer.addNode, Heap.read_of_mem h.layout.loose_mem_blocks, Option.bind_some, h.time]
  exact h.link _

/-- The loop of `move_list` ends after the nodes of the detached list. -/
theorem Rep.moveLoop {fuel : Nat} (h : Rep T current none addrs W nodes)
    (hfuel : nodes.length ≤ fuel) :
    ∃ T' addrs', T.moveLoop fuel current = some T' ∧ T'.heap.blocks = T.heap.blocks ∧
      (∀ b, T'.heap.value b = T.heap.value b) ∧
      Rep T' none none addrs' (nodes.foldl Timer.addNode W) [] := by
  induction nodes generalizing T current addrs W fuel with
  | nil =>
    have hnone : current = none := by
      have hchain := h.layout.chain none
      rwa [List.map_eq_nil_iff.mp h.detached] at hchain
    subst hnone
    exact ⟨T, addrs, by rw [NodeTimer.moveLoop], rfl, fun _ => rfl, h⟩
  | cons node nodes ih =>
    obtain ⟨a, rfl, ha, rfl, addrs₁, hpop⟩ := h.pop
    obtain ⟨T₂, addrs₂, hadd, hblocks₂, hvalue₂, hrep₂⟩ := hpop.addNode
    obtain ⟨fuel, rfl⟩ : ∃ k, fuel = k + 1 :=
      ⟨fuel - 1, by rw [List.length_cons] at hfuel; omega⟩
    obtain ⟨T₃, addrs₃, hloop, hblocks₃, hvalue₃, hrep₃⟩ :=
      ih hrep₂ (Nat.le_of_succ_le_succ hfuel)
    refine ⟨T₃, addrs₃, ?_, hblocks₃.trans hblocks₂, fun b => (hvalue₃ b).trans (hvalue₂ b), hrep₃⟩
    rw [NodeTimer.moveLoop, Heap.read_of_mem ha, Option.bind_some, hadd, Option.bind_some, hloop]

omit [DecidableEq A] in
/-- There are not more detached nodes than nodes. -/
theorem Rep.length_le {loose : Option A}
    (h : Rep T current loose addrs W nodes) :
    nodes.length ≤ T.heap.blocks.length := by
  rw [← h.detached, List.length_map]
  exact (List.subperm_of_subset (h.layout.nodup none)
    fun a ha => h.layout.mem_blocks ha).length_le

theorem Rep.moveList (h : Rep T none none addrs W []) (level : Fin 4) (idx : Fin timeLevel) :
    ∃ T' addrs', T.moveList level idx = some T' ∧ T'.heap.blocks = T.heap.blocks ∧
      (∀ b, T'.heap.value b = T.heap.value b) ∧
      Rep T' none none addrs' (W.moveList level idx) [] := by
  obtain ⟨addrs', hcleared⟩ := h.linkClear (.level level idx)
  exact hcleared.moveLoop hcleared.length_le

theorem Rep.timerShift (h : Rep T none none addrs W []) :
    ∃ T' addrs', T.timerShift = some T' ∧
      T'.heap.blocks = T.heap.blocks ∧
      (∀ b, T'.heap.value b = T.heap.value b) ∧
      Rep T' none none addrs' W.timerShift [] := by
  have hticked : Rep { T with time := W.time + 1 } none none addrs
      { W with time := W.time + 1 } [] :=
    ⟨h.layout, h.tails, fun list => by cases list <;> exact h.values _, h.detached, rfl⟩
  have hlevels : List.finRange 4 = [0, 1, 2, 3] := rfl
  simp only [NodeTimer.timerShift, Timer.timerShift, h.time, hlevels]
  split_ifs with hzero
  · exact hticked.moveList _ _
  · generalize Timer.shiftLoop (W.time + 1) [0, 1, 2, 3]
      (UInt32.ofNat timeNear) ((W.time + 1) >>> timeNearShift) = found
    rcases found with _ | ⟨i, idx⟩
    · exact ⟨_, addrs, rfl, rfl, fun _ => rfl, hticked⟩
    · exact hticked.moveList i idx

/-- `timer_add`. -/
theorem Rep.timerAdd (h : Rep T current none addrs W nodes) {a : A}
    (ha : a ∉ T.heap.blocks) (next : Option A) (event : ε) (time : Nat) :
    ∃ T' addrs', T.timerAdd a next event time = some T' ∧ T'.heap.blocks = a :: T.heap.blocks ∧
      T'.heap.value a = ⟨UInt32.ofNat time + W.time, event⟩ ∧
      (∀ b, b ≠ a → T'.heap.value b = T.heap.value b) ∧
      Rep T' current none addrs' (W.timerAdd event time) nodes := by
  let cell : Cell A (TimerNode ε) := ⟨next, ⟨UInt32.ofNat time + T.time, event⟩⟩
  let heap : Heap A (TimerNode ε) :=
    ⟨Function.update T.heap.cells a cell, a :: T.heap.blocks⟩
  have hself : heap.value a = cell.value := by
    simp [heap, Heap.value]
  have hother : ∀ b, b ≠ a → heap.value b = T.heap.value b := by
    intro b hb
    simp [heap, Heap.value, hb]
  -- the new node is in no list yet
  have hmap : ∀ i, (addrs i).map heap.value = (addrs i).map T.heap.value := by
    intro i
    refine List.map_congr_left fun b hb => hother b ?_
    rintro rfl
    exact ha (h.layout.mem_blocks hb)
  have hnew : Rep { T with heap := heap } current (some a) addrs W nodes := by
    refine ⟨?_, h.tails, ?_, ?_, h.time⟩
    · have hheads : { T with heap := heap }.heads current = T.heads current := by
        funext i
        cases i <;> rfl
      rw [hheads]
      exact h.layout.malloc ha cell
    · intro list
      exact (hmap (some list)).trans (h.values list)
    · exact (hmap none).trans h.detached
  obtain ⟨T', addrs', hadd, hblocks, hvalue, hrep⟩ := hnew.addNode
  have hnode : heap.value a = ⟨UInt32.ofNat time + W.time, event⟩ := by
    rw [hself, ← h.time]
  refine ⟨T', addrs', ?_, hblocks, (hvalue a).trans hnode,
    fun b hb => (hvalue b).trans (hother b hb), ?_⟩
  · rw [NodeTimer.timerAdd, Heap.malloc, if_neg ha, Option.bind_some]
    exact hadd
  · rw [Timer.timerAdd, ← hnode]
    exact hrep

omit [DecidableEq A] in
/-- The detached list is empty if the pointer to it is null. -/
theorem Rep.current_eq_none_iff {loose : Option A}
    (h : Rep T current loose addrs W nodes) : current = none ↔ nodes = [] := by
  have hhead : current = (addrs none).head? := (h.layout.chain none).head_eq
  rw [hhead, List.head?_eq_none_iff, ← h.detached, List.map_eq_nil_iff]

omit [DecidableEq A] in
/-- The loop test of `timer_execute`. -/
theorem Rep.executeTest (h : Rep T none none addrs W []) :
    (T.executeTest = none ∧ W.executeTest = none) ∨
      ∃ T' current W' nodes addrs', T.executeTest = some (T', current) ∧
        W.executeTest = some (W', nodes) ∧ T'.heap = T.heap ∧
        Rep T' current none addrs' W' nodes := by
  obtain ⟨addrs', hcleared⟩ := h.linkClear (.near (nearIndex W.time))
  have hiff := hcleared.current_eq_none_iff
  simp only [NodeTimer.executeTest, Timer.executeTest, h.time]
  by_cases hnull : (T.linkClear (.near (nearIndex W.time))).2 = none
  · have hnil := hiff.mp hnull
    exact .inl ⟨if_pos hnull, if_pos (List.isEmpty_iff.mpr hnil)⟩
  · have hne : ¬ (W.linkClear (.near (nearIndex W.time))).2.isEmpty := by
      rw [List.isEmpty_iff]
      exact fun hnil => hnull (hiff.mpr hnil)
    exact .inr ⟨_, _, _, _, addrs', if_neg hnull, if_neg hne, rfl, hcleared⟩

/-- `dispatch_list` frees the first node. -/
theorem Rep.dispatch {node : TimerNode ε} (h : Rep T current none addrs W (node :: nodes)) :
    ∃ a heap addrs', current = some a ∧ T.heap.read a = some (T.heap.cells a) ∧
      T.heap.value a = node ∧ T.heap.free a = some heap ∧
      Rep { T with heap := heap } (T.heap.cells a).next none addrs' W nodes := by
  obtain ⟨a, rfl, ha, hvalue, addrs', hpop⟩ := h.pop
  obtain ⟨heap, hfree, hcells, hlayout⟩ := hpop.layout.free
  have hfun : heap.value = T.heap.value := by
    funext b
    rw [Heap.value, Heap.value, hcells]
  refine ⟨a, heap, addrs', rfl, Heap.read_of_mem ha, hvalue, hfree, ?_,
    hpop.tails, ?_, ?_, hpop.time⟩
  · have hheads : { T with heap := heap }.heads (T.heap.cells a).next =
        T.heads (T.heap.cells a).next := by
      funext i
      cases i <;> rfl
    rw [hheads]
    exact hlayout
  · rw [hfun]
    exact hpop.values
  · rw [hfun]
    exact hpop.detached

end NodeTimer

/-! ## Runs -/

/-- The pointer of `dispatch_list`. -/
def NodePc.current : NodePc A → Option A
  | .idle => none
  | .dispatching _ current => current

/-- Which `timer_execute` is running, if any. -/
def NodePc.execute : NodePc A → Option Bool
  | .idle => none
  | .dispatching shifted _ => some shifted

/-- The nodes still to be dispatched. -/
def UpdatePc.nodes : UpdatePc ε → List (TimerNode ε)
  | .idle => []
  | .dispatching _ nodes => nodes

/-- Which `timer_execute` is running, if any. -/
def UpdatePc.execute : UpdatePc ε → Option Bool
  | .idle => none
  | .dispatching shifted _ => some shifted

namespace NodeState

/-- The events of the allocated nodes. -/
def events (s : NodeState A ε) : List ε :=
  s.timer.heap.blocks.map fun a => (s.timer.heap.value a).event

/-- The histories agree, and every event that was added is carried by a node or
has been dispatched. -/
structure SameHistory (s : NodeState A ε) (w : WheelState ε) : Prop where
  ticks : s.ticks = w.ticks
  added : s.added = w.added
  dispatched : s.dispatched = w.dispatched
  accounted : (s.events ++ s.dispatched.map Prod.snd).Perm
    (s.added.map Addition.event)

/-- The nodes in memory are those of the wheel. -/
structure Models (s : NodeState A ε) (w : WheelState ε) : Prop where
  rep : ∃ addrs, s.timer.Rep s.pc.current none addrs w.timer w.pc.nodes
  execute : s.pc.execute = w.pc.execute
  history : SameHistory s w

variable {s : NodeState A ε} {w : WheelState ε}

omit [DecidableEq A] in
theorem SameHistory.of_heap (h : SameHistory s w) {T : NodeTimer A ε}
    (hblocks : T.heap.blocks = s.timer.heap.blocks)
    (hvalue : ∀ b, T.heap.value b = s.timer.heap.value b) (pc : NodePc A)
    (W : Timer ε) (pc' : UpdatePc ε) :
    SameHistory { s with timer := T, pc := pc }
      { w with timer := W, pc := pc' } := by
  refine ⟨h.ticks, h.added, h.dispatched, ?_⟩
  simp only [events, hblocks, hvalue]
  exact h.accounted

omit [DecidableEq A] in
theorem models_secondExecute {addrs : Option LinkList → List A}
    (hrep : s.timer.Rep none none addrs w.timer [])
    (hhistory : SameHistory s w) :
    Models s.secondExecute w.secondExecute := by
  rw [secondExecute, WheelState.secondExecute]
  rcases hrep.executeTest with ⟨hnone, hnone'⟩ |
    ⟨T, current, W, nodes, addrs', hsome, hsome', hheap, hrep'⟩
  · rw [hnone, hnone']
    exact ⟨⟨addrs, hrep⟩, rfl, hhistory.of_heap rfl (fun _ => rfl) .idle w.timer .idle⟩
  · rw [hsome, hsome']
    exact ⟨⟨addrs', hrep'⟩, rfl, hhistory.of_heap (by rw [hheap]) (fun _ => by rw [hheap]) _ _ _⟩

theorem models_firstExecute {addrs : Option LinkList → List A}
    (hrep : s.timer.Rep none none addrs w.timer [])
    (hhistory : SameHistory s w) :
    ∃ s', s.firstExecute = some s' ∧ Models s' w.firstExecute := by
  rw [firstExecute, WheelState.firstExecute]
  rcases hrep.executeTest with ⟨hnone, hnone'⟩ |
    ⟨T, current, W, nodes, addrs', hsome, hsome', hheap, hrep'⟩
  · obtain ⟨T, addrs', hshift, hblocks, hvalue, hrep'⟩ := hrep.timerShift
    rw [hnone, hnone', hshift]
    refine ⟨_, rfl, models_secondExecute hrep' ⟨?_, hhistory.added, hhistory.dispatched, ?_⟩⟩
    · rw [hhistory.ticks]
    · exact (hhistory.of_heap hblocks hvalue s.pc w.timer w.pc).accounted
  · rw [hsome, hsome']
    exact ⟨_, rfl, ⟨addrs', hrep'⟩, rfl,
      hhistory.of_heap (by rw [hheap]) (fun _ => by rw [hheap]) _ _ _⟩

theorem Models.add (h : Models s w) {node : A}
    (hnode : node ∉ s.timer.heap.blocks) (next : Option A) (delay : Delay)
    (event : ε) :
    Option.Rel Models (s.step (.add node next delay event)) (w.step (.add delay event)) := by
  obtain ⟨addrs, hrep⟩ := h.rep
  obtain ⟨T, addrs', hadd, hblocks, hself, hother, hrep'⟩ :=
    hrep.timerAdd hnode next event delay.ticks
  rw [step, hadd, Option.map_some]
  refine .some ⟨⟨addrs', hrep'⟩, h.execute, h.history.ticks, ?_, h.history.dispatched, ?_⟩
  · simp only [h.history.added, h.history.ticks]
  · have hevents : T.heap.blocks.map (fun a => (T.heap.value a).event) = event :: s.events := by
      rw [hblocks, List.map_cons, hself, events]
      congr 1
      refine List.map_congr_left fun b hb => ?_
      rw [hother b]
      rintro rfl
      exact hnode hb
    show (T.heap.blocks.map (fun a => (T.heap.value a).event) ++ _).Perm _
    rw [hevents, List.map_append, List.cons_append]
    exact (h.history.accounted.cons event).trans (List.perm_append_singleton event _).symm

omit [DecidableEq A] in
/-- Where the two stand. -/
theorem Models.pc_cases (h : Models s w) :
    (s.pc = .idle ∧ w.pc = .idle ∧
        ∃ addrs, s.timer.Rep none none addrs w.timer []) ∨
      ∃ shifted current nodes, s.pc = .dispatching shifted current ∧
        w.pc = .dispatching shifted nodes ∧
        ∃ addrs, s.timer.Rep current none addrs w.timer nodes := by
  obtain ⟨addrs, hrep⟩ := h.rep
  have hexecute := h.execute
  cases hs : s.pc with
  | idle =>
    cases hw : w.pc with
    | idle =>
      rw [hs, hw] at hrep
      exact .inl ⟨rfl, rfl, addrs, hrep⟩
    | dispatching shifted nodes =>
      rw [hs, hw] at hexecute
      cases hexecute
  | dispatching shifted current =>
    cases hw : w.pc with
    | idle =>
      rw [hs, hw] at hexecute
      cases hexecute
    | dispatching shifted' nodes =>
      rw [hs, hw] at hrep hexecute
      cases hexecute
      exact .inr ⟨shifted, current, nodes, rfl, rfl, addrs, hrep⟩

theorem Models.dispatch (h : Models s w) :
    Option.Rel Models (s.step .dispatch) (w.step .dispatch) := by
  rcases h.pc_cases with ⟨hs, hw, -⟩ | ⟨shifted, current, nodes, hs, hw, addrs, hrep⟩
  · simp only [step, WheelState.step, hs, hw]
    exact .none
  cases nodes with
  | nil =>
    obtain rfl := hrep.current_eq_none_iff.mpr rfl
    simp only [step, WheelState.step, hs, hw]
    exact .none
  | cons node nodes =>
    obtain ⟨a, heap, addrs', rfl, hread, rfl, hfree, hrep'⟩ := hrep.dispatch
    simp only [step, WheelState.step, hs, hw, hread, hfree, Option.bind_some, Option.map_some]
    refine .some ⟨⟨addrs', hrep'⟩, rfl, h.history.ticks, h.history.added, ?_, ?_⟩
    · simp only [h.history.dispatched, h.history.ticks]
      rfl
    · -- the event of the freed node has been dispatched
      obtain ⟨ha, rfl⟩ : a ∈ s.timer.heap.blocks ∧
          { s.timer.heap with blocks := s.timer.heap.blocks.erase a } =
            heap := by
        rw [Heap.free] at hfree
        exact (Option.ite_none_right_eq_some.mp hfree).imp_right Option.some.inj
      have hperm : s.events.Perm ((s.timer.heap.value a).event :: (s.timer.heap.blocks.erase a).map
            fun b => (s.timer.heap.value b).event) :=
        (List.perm_cons_erase ha).map _
      have haccounted := h.history.accounted
      rw [List.map_append, ← List.append_assoc]
      refine (List.perm_append_singleton _ _).trans ?_
      exact (hperm.append_right _).symm.trans haccounted

/-- What the one can do the other can do. -/
theorem Models.step (h : Models s w) {a : NodeAction A ε}
    (hfresh : ∀ node next delay event, a = .add node next delay event →
      node ∉ s.timer.heap.blocks) :
    Option.Rel Models (s.step a) (w.step a.onWheel) := by
  cases a with
  | add node next delay event =>
    exact h.add (hfresh _ _ _ _ rfl) next delay event
  | update =>
    rcases h.pc_cases with ⟨hs, hw, addrs, hrep⟩ | ⟨_, _, _, hs, hw, -⟩
    · obtain ⟨s', hfirst, hmodels⟩ := models_firstExecute hrep h.history
      simp only [NodeState.step, NodeAction.onWheel, WheelState.step, hs, hw, hfirst]
      exact .some hmodels
    · simp only [NodeState.step, NodeAction.onWheel, WheelState.step, hs, hw]
      exact .none
  | dispatch => exact h.dispatch
  | relock =>
    rcases h.pc_cases with ⟨hs, hw, -⟩ | ⟨shifted, current, nodes, hs, hw, addrs, hrep⟩
    · simp only [NodeState.step, NodeAction.onWheel, WheelState.step, hs, hw]
      exact .none
    have hiff := hrep.current_eq_none_iff
    cases nodes with
    | nil =>
      obtain rfl := hiff.mpr rfl
      simp only [NodeState.step, NodeAction.onWheel, WheelState.step, hs, hw]
      cases shifted with
      | true => exact .some (models_secondExecute hrep h.history)
      | false =>
        obtain ⟨s', hfirst, hmodels⟩ := models_firstExecute hrep h.history
        simp only [hfirst]
        exact .some hmodels
    | cons node nodes =>
      obtain ⟨a, rfl⟩ := Option.ne_none_iff_exists'.mp
        (fun hnone => List.cons_ne_nil _ _ (hiff.mp hnone))
      simp only [NodeState.step, NodeAction.onWheel, WheelState.step, hs, hw]
      exact .none

omit [DecidableEq A] in
theorem models_fresh (cells : A → Cell A (TimerNode ε)) :
    Models (fresh cells) WheelState.fresh := by
  refine ⟨⟨fun _ => [], ?_, fun _ => rfl, fun list => by cases list <;> rfl,
    rfl, rfl⟩, rfl, rfl, rfl, rfl, .refl _⟩
  refine ⟨fun i => ?_, fun _ => List.nodup_nil, fun h => by simp at h,
    fun h => by simp at h, fun a => by simp [fresh], List.nodup_nil⟩
  cases i <;> rfl

/-- `malloc` hands out no block that is in use. -/
theorem not_mem_blocks_of_step {node : A} {next : Option A} {delay : Delay}
    {event : ε} {s' : NodeState A ε}
    (h : s.step (.add node next delay event) = some s') :
    node ∉ s.timer.heap.blocks := by
  intro hmem
  rw [step, NodeTimer.timerAdd, Heap.malloc, if_pos hmem] at h
  cases h

theorem models_of_run {cells : A → Cell A (TimerNode ε)}
    {actions : List (NodeAction A ε)}
    (hrun : runSteps step (fresh cells) actions = some s) :
    ∃ w, runSteps WheelState.step .fresh (actions.map NodeAction.onWheel) =
        some w ∧ Models s w := by
  refine runSteps_follows ?_ (models_fresh cells) hrun
  intro s a s' w hmodels hstep
  have hrel := hmodels.step (a := a) (by
    rintro node next delay event rfl
    exact not_mem_blocks_of_step hstep)
  rw [hstep] at hrel
  generalize hw : w.step a.onWheel = next at hrel
  cases hrel with
  | some hmodels' => exact ⟨_, rfl, hmodels'⟩

/-- **The nodes do what the lists of the wheel do.**  For every run, whichever
blocks `malloc` returns and whatever they hold, the wheel of lists takes the
same steps with the same events dispatched; and a step that it can take next is
never cut short by a node that is not allocated or by a loop without end. -/
theorem refines_wheel {cells : A → Cell A (TimerNode ε)}
    {actions : List (NodeAction A ε)}
    (hrun : runSteps step (fresh cells) actions = some s) :
    ∃ w, runSteps WheelState.step .fresh (actions.map NodeAction.onWheel) = some w ∧
      s.ticks = w.ticks ∧ s.added = w.added ∧ s.dispatched = w.dispatched ∧
      ∀ a, (∀ node next delay event, a = .add node next delay event → node ∉ s.timer.heap.blocks) →
        (s.step a).isSome = (w.step a.onWheel).isSome := by
  obtain ⟨w, hwheel, hmodels⟩ := models_of_run hrun
  refine ⟨w, hwheel, hmodels.history.ticks, hmodels.history.added, hmodels.history.dispatched, ?_⟩
  intro a hfresh
  have hrel := hmodels.step hfresh
  generalize s.step a = x at hrel ⊢
  generalize w.step a.onWheel = y at hrel ⊢
  cases hrel <;> rfl

/-- Two nodes in one list, one added while the other is dispatched. -/
theorem refines_wheel_two_nodes :
    ∃ (s : NodeState Nat Nat) (w : WheelState Nat),
      runSteps step (fresh fun _ => ⟨some 5, ⟨0, 0⟩⟩) [.add 10 none ⟨1, by decide, by decide⟩ 7,
            .add 20 (some 10) ⟨1, by decide, by decide⟩ 8, .update, .dispatch,
            .add 10 (some 10) ⟨1, by decide, by decide⟩ 9, .dispatch, .relock,
            .update] = some s ∧
      s.dispatched = [(1, 7), (1, 8)] ∧ s.dispatched = w.dispatched ∧
      (s.step .dispatch).isSome = (w.step .dispatch).isSome := by
  have hdispatched : (runSteps step (fresh fun _ => ⟨some 5, ⟨0, 0⟩⟩ : NodeState Nat Nat)
      [.add 10 none ⟨1, by decide, by decide⟩ 7,
        .add 20 (some 10) ⟨1, by decide, by decide⟩ 8, .update, .dispatch,
        .add 10 (some 10) ⟨1, by decide, by decide⟩ 9, .dispatch, .relock,
        .update]).map dispatched = some [(1, 7), (1, 8)] := by
    decide +kernel
  obtain ⟨s, hrun, hdispatched⟩ := Option.map_eq_some_iff.mp hdispatched
  obtain ⟨w, -, -, -, hsame, hnext⟩ := refines_wheel hrun
  exact ⟨s, w, hrun, hdispatched, hsame, hnext .dispatch (by simp)⟩

/-- **No node is lost and none is freed twice.**  For every run, the events of
the allocated nodes and the dispatched ones are the events that were added, each
as often as it was added. -/
theorem nodes_accounted {cells : A → Cell A (TimerNode ε)}
    {actions : List (NodeAction A ε)}
    (hrun : runSteps step (fresh cells) actions = some s) :
    s.timer.heap.blocks.Nodup ∧ (s.events ++ s.dispatched.map Prod.snd).Perm
        (s.added.map Addition.event) := by
  obtain ⟨w, -, hmodels⟩ := models_of_run hrun
  obtain ⟨addrs, hrep⟩ := hmodels.rep
  exact ⟨hrep.layout.blocks_nodup, hmodels.history.accounted⟩

/-- One node has been freed and one is still in the wheel. -/
theorem nodes_accounted_one_left :
    ∃ s : NodeState Nat Nat,
      runSteps step (fresh fun _ => ⟨some 5, ⟨0, 0⟩⟩) [.add 10 none ⟨1, by decide, by decide⟩ 7,
            .add 20 (some 10) ⟨2, by decide, by decide⟩ 8, .update,
            .dispatch, .relock] = some s ∧
      s.timer.heap.blocks = [20] ∧
      (s.events ++ s.dispatched.map Prod.snd).Perm (s.added.map Addition.event) := by
  have hblocks : (runSteps step (fresh fun _ => ⟨some 5, ⟨0, 0⟩⟩ : NodeState Nat Nat)
      [.add 10 none ⟨1, by decide, by decide⟩ 7,
        .add 20 (some 10) ⟨2, by decide, by decide⟩ 8, .update, .dispatch,
        .relock]).map (fun s => s.timer.heap.blocks) = some [20] := by
    decide +kernel
  obtain ⟨s, hrun, hblocks⟩ := Option.map_eq_some_iff.mp hblocks
  exact ⟨s, hrun, hblocks, (nodes_accounted hrun).2⟩

end NodeState
end Gametimer
end GameServer
