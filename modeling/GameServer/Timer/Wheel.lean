import GameServer.Lib.Bits
import GameServer.Lib.TimingWheel

/-!
# The timer wheel

The wheel of `timer.cpp`: 256 lists for the ticks of the current block, and
four levels of 64 lists for later ones.  A node is put into the list that its
expiry and the current time select (`add_node`); each tick moves the list of
the block that has just begun one level down (`timer_shift`).

Times are the 32-bit counters of the source and wrap around.  A list is given
by its address, `&T->near[idx]` or `&T->t[i][idx]`, and its nodes are kept in
list order.  The events carried by the nodes are arbitrary.
-/

namespace GameServer
namespace Gametimer

open Lib

/-- `TIME_NEAR_SHIFT`. -/
def timeNearShift : UInt32 := 8

/-- `TIME_NEAR`. -/
def timeNear : Nat := 256

/-- `TIME_LEVEL_SHIFT`. -/
def timeLevelShift : UInt32 := 6

/-- `TIME_LEVEL`. -/
def timeLevel : Nat := 64

/-- `TIME_NEAR_MASK`. -/
def timeNearMask : UInt32 := UInt32.ofNat (timeNear - 1)

/-- `TIME_LEVEL_MASK`. -/
def timeLevelMask : UInt32 := UInt32.ofNat (timeLevel - 1)

/-- `timer_node`, with the event stored behind it. -/
structure TimerNode (ε : Type*) where
  expire : UInt32
  event : ε

/-- The address of a `link_list` of the timer. -/
inductive LinkList where
  | near (idx : Fin timeNear)
  | level (i : Fin 4) (idx : Fin timeLevel)
deriving DecidableEq

/-- `struct timer`: the lists and the tick counter. -/
structure Timer (ε : Type*) where
  near : Fin timeNear → List (TimerNode ε)
  t : Fin 4 → Fin timeLevel → List (TimerNode ε)
  time : UInt32

/-- `time & TIME_NEAR_MASK` as an index of `near`. -/
def nearIndex (time : UInt32) : Fin timeNear :=
  ⟨(time &&& timeNearMask).toNat, by
    rw [UInt32.toNat_and]
    exact lt_of_le_of_lt Nat.and_le_right (by decide)⟩

/-- `time & TIME_LEVEL_MASK` as an index of a level. -/
def levelIndex (time : UInt32) : Fin timeLevel :=
  ⟨(time &&& timeLevelMask).toNat, by
    rw [UInt32.toNat_and]
    exact lt_of_le_of_lt Nat.and_le_right (by decide)⟩

/-- The loop of `add_node`: the first of the given levels whose block holds
both times, and the last level if there is none. -/
def levelLoop (time currentTime : UInt32) : List (Fin 4) → UInt32 → Fin 4
  | [], _ => 3
  | i :: levels, mask =>
    if time ||| (mask - 1) = currentTime ||| (mask - 1) then
      i
    else
      levelLoop time currentTime levels (mask <<< timeLevelShift)

/-- The list `add_node` links a node to. -/
def listFor (time currentTime : UInt32) : LinkList :=
  if time ||| timeNearMask = currentTime ||| timeNearMask then
    .near (nearIndex time)
  else
    let i := levelLoop time currentTime [0, 1, 2]
      (UInt32.ofNat timeNear <<< timeLevelShift)
    .level i (levelIndex
      (time >>> (timeNearShift + UInt32.ofNat i * timeLevelShift)))

namespace Timer

variable {ε : Type*}

/-- The nodes of a list. -/
def get (T : Timer ε) : LinkList → List (TimerNode ε)
  | .near idx => T.near idx
  | .level i idx => T.t i idx

/-- Replace the nodes of a list. -/
def set (T : Timer ε) (list : LinkList) (nodes : List (TimerNode ε)) :
    Timer ε :=
  match list with
  | .near idx => { T with near := Function.update T.near idx nodes }
  | .level i idx =>
    { T with t := Function.update T.t i (Function.update (T.t i) idx nodes) }

/-- `timer_create_timer`. -/
def create : Timer ε where
  near := fun _ => []
  t := fun _ _ => []
  time := 0

/-- `link`. -/
def link (T : Timer ε) (list : LinkList) (node : TimerNode ε) : Timer ε :=
  T.set list (T.get list ++ [node])

/-- `link_clear`, with the nodes it returns. -/
def linkClear (T : Timer ε) (list : LinkList) :
    Timer ε × List (TimerNode ε) :=
  (T.set list [], T.get list)

/-- `add_node`. -/
def addNode (T : Timer ε) (node : TimerNode ε) : Timer ε :=
  T.link (listFor node.expire T.time) node

/-- `timer_add`: the delay is added to the counter modulo 2^32. -/
def timerAdd (T : Timer ε) (event : ε) (time : Nat) : Timer ε :=
  T.addNode ⟨UInt32.ofNat time + T.time, event⟩

/-- `move_list`. -/
def moveList (T : Timer ε) (level : Fin 4) (idx : Fin timeLevel) : Timer ε :=
  let cleared := T.linkClear (.level level idx)
  cleared.2.foldl addNode cleared.1

/-- The loop of `timer_shift`: the list to move, if the tick starts a new
block. -/
def shiftLoop (ct : UInt32) :
    List (Fin 4) → UInt32 → UInt32 → Option (Fin 4 × Fin timeLevel)
  | [], _, _ => none
  | i :: levels, mask, time =>
    if ct &&& (mask - 1) = 0 then
      if time &&& timeLevelMask ≠ 0 then
        some (i, levelIndex time)
      else
        shiftLoop ct levels (mask <<< timeLevelShift)
          (time >>> timeLevelShift)
    else
      none

/-- `timer_shift`.  The counter's wrap to zero is treated apart. -/
def timerShift (T : Timer ε) : Timer ε :=
  let ct := T.time + 1
  let T := { T with time := ct }
  if ct = 0 then
    T.moveList 3 ⟨0, by decide⟩
  else
    match shiftLoop ct [0, 1, 2, 3] (UInt32.ofNat timeNear)
        (ct >>> timeNearShift) with
    | none => T
    | some (i, idx) => T.moveList i idx

/-- The loop test of `timer_execute`: the list of the current tick is detached
if it is not empty. -/
def executeTest (T : Timer ε) : Option (Timer ε × List (TimerNode ε)) :=
  let cleared := T.linkClear (.near (nearIndex T.time))
  if cleared.2.isEmpty then none else some cleared

/-! ### The lists after each operation -/

@[simp] theorem get_set (T : Timer ε) (list other : LinkList) (nodes : List (TimerNode ε)) :
    (T.set list nodes).get other =
      if other = list then nodes else T.get other := by
  cases list with
  | near idx =>
    cases other with
    | near idx' => simp [set, get, Function.update_apply]
    | level i' idx' => simp [set, get]
  | level i idx =>
    cases other with
    | near idx' => simp [set, get]
    | level i' idx' =>
      by_cases hi : i' = i
      · subst hi
        simp [set, get, Function.update_apply]
      · simp [set, get, hi]

@[simp] theorem time_set (T : Timer ε) (list : LinkList)
    (nodes : List (TimerNode ε)) : (T.set list nodes).time = T.time := by
  cases list <;> rfl

@[simp] theorem time_addNode (T : Timer ε) (node : TimerNode ε) : (T.addNode node).time = T.time :=
  time_set T _ _

@[simp] theorem time_timerAdd (T : Timer ε) (event : ε) (time : Nat) :
    (T.timerAdd event time).time = T.time :=
  time_addNode T _

theorem get_addNode (T : Timer ε) (node : TimerNode ε) (list : LinkList) :
    (T.addNode node).get list =
      if list = listFor node.expire T.time then T.get list ++ [node]
      else T.get list := by
  rw [addNode, link, get_set]
  split_ifs with h
  · rw [h]
  · rfl

/-- Adding nodes one after the other appends to every list the nodes that are
meant for it, in order. -/
theorem get_foldl_addNode (nodes : List (TimerNode ε)) (T : Timer ε) (list : LinkList) :
    (nodes.foldl addNode T).get list = T.get list ++ nodes.filter fun node =>
        listFor node.expire T.time = list := by
  induction nodes generalizing T with
  | nil => simp
  | cons node nodes ih =>
    rw [List.foldl_cons, ih, time_addNode, get_addNode]
    by_cases h : list = listFor node.expire T.time
    · rw [if_pos h, List.filter_cons_of_pos (by simp [h]), List.append_assoc]
      rfl
    · rw [if_neg h, List.filter_cons_of_neg (by simpa using Ne.symm h)]

theorem time_foldl_addNode (nodes : List (TimerNode ε)) (T : Timer ε) :
    (nodes.foldl addNode T).time = T.time := by
  induction nodes generalizing T with
  | nil => rfl
  | cons node nodes ih => rw [List.foldl_cons, ih, time_addNode]

/-- Moving a list empties it and appends its nodes to the lists they are meant
for at the current time. -/
theorem get_moveList (T : Timer ε) (level : Fin 4) (idx : Fin timeLevel) (list : LinkList) :
    (T.moveList level idx).get list = (if list = .level level idx then [] else T.get list) ++
        (T.get (.level level idx)).filter fun node =>
          listFor node.expire T.time = list := by
  rw [moveList, get_foldl_addNode]
  simp only [linkClear, get_set, time_set]

theorem time_moveList (T : Timer ε) (level : Fin 4) (idx : Fin timeLevel) :
    (T.moveList level idx).time = T.time := by
  rw [moveList, time_foldl_addNode]
  exact time_set T _ _

end Timer

/-! ## The wheel as a mixed-radix wheel -/

/-- The positions of the wheel: eight bits for the near lists, then six bits
for each of the four levels. -/
def wheelRadix : Radix where
  base
    | 0 => 0
    | j + 1 => 8 + 6 * j
  base_zero := rfl
  base_lt
    | 0 => by decide
    | j + 1 => by simp only; omega
  top := 4

/-- Position and digit a list stands for. -/
def LinkList.position : LinkList → Nat × Nat
  | .near idx => (0, idx)
  | .level i idx => (i + 1, idx)

theorem LinkList.position_injective : Function.Injective LinkList.position := by
  intro list other h
  cases list with
  | near idx =>
    cases other with
    | near idx' => simpa [position, Fin.ext_iff] using h
    | level i' idx' => simp [position] at h
  | level i idx =>
    cases other with
    | near idx' => simp [position] at h
    | level i' idx' => simpa [position, Fin.ext_iff] using h

section Horizon

variable {now deadline : Nat}

/-- Within half the counter's range, comparing blocks of the wrapped times is
comparing blocks of the times. -/
theorem or_lowMask_ofNat_iff {k : Nat} (hk : k = 8 ∨ k = 14 ∨ k = 20 ∨ k = 26)
    (hle : now ≤ deadline) (hnear : deadline < now + 2 ^ 31) :
    UInt32.ofNat deadline ||| lowMask k = UInt32.ofNat now ||| lowMask k ↔
      deadline / 2 ^ k = now / 2 ^ k := by
  rw [or_lowMask_eq_iff (by omega), UInt32.toNat_ofNat', UInt32.toNat_ofNat']
  rcases hk with rfl | rfl | rfl | rfl <;> omega

/-- Deadlines within half the counter's range are within the wheel's reach. -/
theorem within_wheelRadix (hnear : deadline < now + 2 ^ 31) : wheelRadix.Within now deadline := by
  show deadline / 2 ^ 26 < now / 2 ^ 26 + 2 ^ (32 - 26)
  omega

/-- The choice of `add_node`, spelled out. -/
theorem listFor_eq (time currentTime : UInt32) :
    listFor time currentTime =
      if time ||| lowMask 8 = currentTime ||| lowMask 8 then
        .near (nearIndex time)
      else if time ||| lowMask 14 = currentTime ||| lowMask 14 then
        .level 0 (levelIndex (time >>> 8))
      else if time ||| lowMask 20 = currentTime ||| lowMask 20 then
        .level 1 (levelIndex (time >>> 14))
      else if time ||| lowMask 26 = currentTime ||| lowMask 26 then
        .level 2 (levelIndex (time >>> 20))
      else
        .level 3 (levelIndex (time >>> 26)) := by
  have h8 : timeNearMask = lowMask 8 := rfl
  have h14 : UInt32.ofNat timeNear <<< timeLevelShift - 1 = lowMask 14 := rfl
  have h20 : UInt32.ofNat timeNear <<< timeLevelShift <<< timeLevelShift - 1 = lowMask 20 := rfl
  have h26 : UInt32.ofNat timeNear <<< timeLevelShift <<< timeLevelShift <<<
      timeLevelShift - 1 = lowMask 26 := rfl
  simp only [listFor, levelLoop, h8, h14, h20, h26]
  split_ifs <;> rfl

theorem val_nearIndex (n : Nat) : (nearIndex (UInt32.ofNat n) : Nat) = wheelRadix.digit 0 n := by
  show (UInt32.ofNat n &&& lowMask 8).toNat = n / 2 ^ 0 % 2 ^ 8
  rw [toNat_and_lowMask _ (by decide), UInt32.toNat_ofNat']
  omega

/-- The six bits of a wrapped time at a level are the digit of the time. -/
theorem val_levelIndex (n : Nat) (i : Fin 4) :
    (levelIndex (UInt32.ofNat n >>> UInt32.ofNat (8 + 6 * i)) : Nat) =
      wheelRadix.digit (i + 1) n := by
  show (UInt32.ofNat n >>> UInt32.ofNat (8 + 6 * i) &&& lowMask 6).toNat =
    n / 2 ^ (8 + 6 * i.val) % 2 ^ (8 + 6 * (i.val + 1) - (8 + 6 * i.val))
  rw [toNat_and_lowMask _ (by decide), UInt32.toNat_shiftRight,
    UInt32.toNat_ofNat', UInt32.toNat_ofNat', Nat.shiftRight_eq_div_pow]
  fin_cases i <;> simp <;> omega

/-- **The list of a node.**  `add_node` puts a node where the mixed-radix wheel
places its deadline. -/
theorem position_listFor (hle : now ≤ deadline) (hnear : deadline < now + 2 ^ 31) :
    (listFor (UInt32.ofNat deadline) (UInt32.ofNat now)).position =
      wheelRadix.place now deadline := by
  have hplace : ∀ j : Nat, j ≤ 4 → (j = 4 ∨ deadline / 2 ^ (8 + 6 * j) = now / 2 ^ (8 + 6 * j)) →
      (∀ i, i < j → deadline / 2 ^ (8 + 6 * i) ≠ now / 2 ^ (8 + 6 * i)) →
      wheelRadix.place now deadline = (j, wheelRadix.digit j deadline) := by
    intro j hj habove hbelow
    rw [Radix.place, Radix.rank_eq (R := wheelRadix) hj habove hbelow]
  have hlevel : ∀ i : Fin 4, (LinkList.level i (levelIndex
        (UInt32.ofNat deadline >>> UInt32.ofNat (8 + 6 * i)))).position =
          (i.val + 1, wheelRadix.digit (i + 1) deadline) := by
    intro i
    rw [LinkList.position, val_levelIndex]
  rw [listFor_eq]
  simp only [or_lowMask_ofNat_iff (Or.inl rfl) hle hnear,
    or_lowMask_ofNat_iff (Or.inr (Or.inl rfl)) hle hnear,
    or_lowMask_ofNat_iff (Or.inr (Or.inr (Or.inl rfl))) hle hnear,
    or_lowMask_ofNat_iff (Or.inr (Or.inr (Or.inr rfl))) hle hnear]
  -- the first block that holds both times decides, as in the definition of rank
  split_ifs with h8 h14 h20 h26
  · rw [hplace 0 (by omega) (Or.inr h8) (by omega), LinkList.position, val_nearIndex]
  · rw [hplace 1 (by omega) (Or.inr h14) (by intro i hi; interval_cases i; exact h8)]
    exact hlevel 0
  · rw [hplace 2 (by omega) (Or.inr h20) (by intro i hi; interval_cases i; exacts [h8, h14])]
    exact hlevel 1
  · rw [hplace 3 (by omega) (Or.inr h26) (by intro i hi; interval_cases i; exacts [h8, h14, h20])]
    exact hlevel 2
  · rw [hplace 4 (by omega) (Or.inl rfl)
      (by intro i hi; interval_cases i; exacts [h8, h14, h20, h26])]
    exact hlevel 3

/-- The tests of `timer_shift` on the wrapped counter are divisibility tests of
the tick. -/
theorem and_lowMask_ofNat_iff {k : Nat} (hk : k ≤ 32) (n : Nat) :
    UInt32.ofNat n &&& lowMask k = 0 ↔ 2 ^ k ∣ n := by
  rw [and_lowMask_eq_zero_iff _ hk, UInt32.toNat_ofNat',
    Nat.mod_mod_of_dvd _ (Nat.pow_dvd_pow 2 hk), Nat.dvd_iff_mod_eq_zero]

/-- A digit of the tick is zero when the wrapped counter's six bits are. -/
theorem and_timeLevelMask_ne_zero_iff (n : Nat) (i : Fin 4) :
    UInt32.ofNat n >>> UInt32.ofNat (8 + 6 * i) &&& timeLevelMask ≠ 0 ↔
      wheelRadix.digit (i + 1) n ≠ 0 := by
  rw [← val_levelIndex, Ne, Ne, ← UInt32.toNat_inj]
  rfl

/-- Above a block that the tick starts, a zero digit means that the next block
starts too. -/
theorem div_mod_ne_zero_iff {n k m : Nat} (h : 2 ^ k ∣ n) :
    n / 2 ^ k % 2 ^ m ≠ 0 ↔ ¬ 2 ^ (k + m) ∣ n := by
  obtain ⟨q, rfl⟩ := h
  have hpos : 0 < 2 ^ k := Nat.two_pow_pos k
  rw [Nat.mul_div_cancel_left q hpos, Nat.pow_add,
    Nat.mul_dvd_mul_iff_left hpos, Nat.dvd_iff_mod_eq_zero]

/-- A round of the loop of `timer_shift` that passes the first test. -/
theorem shiftLoop_of_dvd {n k : Nat} (hdvd : 2 ^ k ∣ n) (i : Fin 4)
    (hk : 8 + 6 * i.val = k) (levels : List (Fin 4)) :
    Timer.shiftLoop (UInt32.ofNat n) (i :: levels) (lowMask k + 1)
        (UInt32.ofNat n >>> UInt32.ofNat k) =
      if 2 ^ (k + 6) ∣ n then
        Timer.shiftLoop (UInt32.ofNat n) levels ((lowMask k + 1) <<< timeLevelShift)
          (UInt32.ofNat n >>> UInt32.ofNat k >>> timeLevelShift)
      else
        some (i, levelIndex (UInt32.ofNat n >>> UInt32.ofNat k)) := by
  subst hk
  have hsix : 8 + 6 * (i.val + 1) - (8 + 6 * i.val) = 6 := by omega
  have hdigit : UInt32.ofNat n >>> UInt32.ofNat (8 + 6 * i) &&&
      timeLevelMask ≠ 0 ↔ ¬ 2 ^ (8 + 6 * i.val + 6) ∣ n := by
    rw [and_timeLevelMask_ne_zero_iff, ← div_mod_ne_zero_iff hdvd]
    show n / 2 ^ (8 + 6 * i.val) % 2 ^ (8 + 6 * (i.val + 1) - (8 + 6 * i.val)) ≠ 0 ↔ _
    rw [hsix]
  have htest := (and_lowMask_ofNat_iff (k := 8 + 6 * i) (by omega) n).mpr hdvd
  rw [Timer.shiftLoop, UInt32.add_sub_cancel, if_pos htest]
  simp only [hdigit, ite_not]

/-- The loop of `timer_shift`, spelled out: it stops at the highest level whose
block the tick starts. -/
theorem shiftLoop_eq (n : Nat) :
    Timer.shiftLoop (UInt32.ofNat n) [0, 1, 2, 3] (UInt32.ofNat timeNear)
        (UInt32.ofNat n >>> timeNearShift) =
      if 2 ^ 8 ∣ n then
        if 2 ^ 14 ∣ n then
          if 2 ^ 20 ∣ n then
            if 2 ^ 26 ∣ n then
              if 2 ^ 32 ∣ n then
                none
              else
                some (3, levelIndex (UInt32.ofNat n >>> UInt32.ofNat 26))
            else
              some (2, levelIndex (UInt32.ofNat n >>> UInt32.ofNat 20))
          else
            some (1, levelIndex (UInt32.ofNat n >>> UInt32.ofNat 14))
        else
          some (0, levelIndex (UInt32.ofNat n >>> UInt32.ofNat 8))
      else
        none := by
  have h8 : UInt32.ofNat timeNear = lowMask 8 + 1 := rfl
  have h14 : (lowMask 8 + 1) <<< timeLevelShift = lowMask 14 + 1 := rfl
  have h20 : (lowMask 14 + 1) <<< timeLevelShift = lowMask 20 + 1 := rfl
  have h26 : (lowMask 20 + 1) <<< timeLevelShift = lowMask 26 + 1 := rfl
  have hshift : ∀ k : Nat, k < 26 → UInt32.ofNat n >>> UInt32.ofNat k >>> timeLevelShift =
        UInt32.ofNat n >>> UInt32.ofNat (k + 6) := by
    intro k hk
    have hk32 : k % 2 ^ 32 % 32 = k := by omega
    have hk6 : (k + 6) % 2 ^ 32 % 32 = k + 6 := by omega
    rw [← UInt32.toNat_inj, UInt32.toNat_shiftRight, UInt32.toNat_shiftRight,
      UInt32.toNat_shiftRight, UInt32.toNat_ofNat', UInt32.toNat_ofNat', hk32,
      UInt32.toNat_ofNat', hk6, Nat.shiftRight_add]
    rfl
  have hstart : timeNearShift = UInt32.ofNat 8 := rfl
  rw [h8, hstart]
  by_cases d8 : 2 ^ 8 ∣ n
  · -- one round of the loop for each level, as long as its block starts
    rw [if_pos d8, shiftLoop_of_dvd d8 0 rfl, h14, hshift 8 (by decide)]
    refine ite_congr rfl (fun d14 => ?_) fun _ => rfl
    rw [shiftLoop_of_dvd d14 1 rfl, h20, hshift 14 (by decide)]
    refine ite_congr rfl (fun d20 => ?_) fun _ => rfl
    rw [shiftLoop_of_dvd d20 2 rfl, h26, hshift 20 (by decide)]
    refine ite_congr rfl (fun d26 => ?_) fun _ => rfl
    rw [shiftLoop_of_dvd d26 3 rfl, Timer.shiftLoop]
  · rw [if_neg d8, Timer.shiftLoop, UInt32.add_sub_cancel, if_neg]
    rwa [and_lowMask_ofNat_iff (by decide)]

/-- **What a tick moves.**  `timer_shift` advances the counter and moves the
list of the bucket the mixed-radix wheel empties, if that is not a near one. -/
theorem timerShift_cases {ε : Type*} {T : Timer ε} (htime : T.time = UInt32.ofNat now) :
    (wheelRadix.carry (now + 1) = 0 ∧ T.timerShift = { T with time := UInt32.ofNat (now + 1) }) ∨
      ∃ i idx, (LinkList.level i idx).position = (wheelRadix.carry (now + 1),
            wheelRadix.digit (wheelRadix.carry (now + 1)) (now + 1)) ∧
        T.timerShift = Timer.moveList { T with time := UInt32.ofNat (now + 1) } i idx := by
  have hct : T.time + 1 = UInt32.ofNat (now + 1) := by
    rw [htime, UInt32.ofNat_add]
    rfl
  have hzero : UInt32.ofNat (now + 1) = 0 ↔ 2 ^ 32 ∣ now + 1 := by
    rw [← UInt32.toNat_inj, UInt32.toNat_ofNat', Nat.dvd_iff_mod_eq_zero]
    rfl
  have hcarry : ∀ j : Nat, j ≤ 4 → 2 ^ wheelRadix.base j ∣ now + 1 →
      (j = 4 ∨ ¬ 2 ^ wheelRadix.base (j + 1) ∣ now + 1) →
      wheelRadix.carry (now + 1) = j :=
    fun j hj hdvd hnext => Radix.carry_eq (R := wheelRadix) hj hdvd hnext
  have hlevel : ∀ i : Fin 4, wheelRadix.carry (now + 1) = i.val + 1 →
      (LinkList.level i (levelIndex (UInt32.ofNat (now + 1) >>>
        UInt32.ofNat (8 + 6 * i)))).position = (wheelRadix.carry (now + 1),
            wheelRadix.digit (wheelRadix.carry (now + 1)) (now + 1)) := by
    intro i hi
    rw [LinkList.position, val_levelIndex, hi]
  unfold Timer.timerShift
  simp only [hct, hzero, shiftLoop_eq]
  split_ifs with h32 h8 h14 h20 h26
  · have hfour := hcarry 4 (by omega)
      ((Nat.pow_dvd_pow 2 (show 26 ≤ 32 by decide)).trans h32) (Or.inl rfl)
    refine Or.inr ⟨3, ⟨0, by decide⟩, ?_, rfl⟩
    rw [LinkList.position, hfour]
    show ((3 : Nat) + 1, 0) = (4, (now + 1) / 2 ^ 26 % 2 ^ 6)
    rw [Prod.mk.injEq]
    omega
  · exact Or.inr ⟨3, _, hlevel 3 (hcarry 4 (by omega) h26 (Or.inl rfl)), rfl⟩
  · exact Or.inr ⟨2, _, hlevel 2 (hcarry 3 (by omega) h20 (Or.inr h26)), rfl⟩
  · exact Or.inr ⟨1, _, hlevel 1 (hcarry 2 (by omega) h14 (Or.inr h20)), rfl⟩
  · exact Or.inr ⟨0, _, hlevel 0 (hcarry 1 (by omega) h8 (Or.inr h14)), rfl⟩
  · exact Or.inl ⟨hcarry 0 (by omega) (one_dvd _) (Or.inr h8), rfl⟩

end Horizon

end Gametimer
end GameServer
