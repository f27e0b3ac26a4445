import Mathlib.Data.List.Nodup
import Mathlib.Data.List.Basic
import Mathlib.Logic.Function.Basic
import Mathlib.Tactic

/-!
# Singly linked lists in a heap

Blocks of memory that point to one another.  A block may be accessed between
the `malloc` that hands it out and the `free` that takes it back; any other
access is undefined.

`Layout` says that a family of lists lies in the heap: along the `next` pointers
of each list stand its blocks, no block is in two lists, and every block is in
one of them, except for at most one block that is just being moved.  The rules
below cover what code does to such lists: a block is handed out, taken off the
front of a list, linked to the end of a list or freed, and a whole list is
handed on.
-/

namespace GameServer
namespace Lib

variable {A V I : Type*}

/-- A block: a pointer to the next one, null at the end, and what it carries. -/
structure Cell (A V : Type*) where
  next : Option A
  value : V

/-- The contents of all addresses, and the blocks handed out by `malloc` that
have not been freed. -/
structure Heap (A V : Type*) where
  cells : A → Cell A V
  blocks : List A

/-- The value a block carries. -/
def Heap.value (h : Heap A V) (a : A) : V := (h.cells a).value

/-! ## Chains -/

/-- Along the `next` pointers from `p` stand the blocks `addrs`, and then null. -/
def Chain (h : Heap A V) : Option A → List A → Prop
  | p, [] => p = none
  | p, a :: rest => p = some a ∧ a ∈ h.blocks ∧ Chain h (h.cells a).next rest

namespace Chain

variable {h h' : Heap A V} {p : Option A} {addrs : List A}

/-- A chain is not disturbed by what happens to other blocks. -/
theorem congr (hchain : Chain h p addrs) (hsame : ∀ a ∈ addrs,
      (h'.cells a).next = (h.cells a).next ∧ a ∈ h'.blocks) :
    Chain h' p addrs := by
  induction addrs generalizing p with
  | nil => exact hchain
  | cons a rest ih =>
    obtain ⟨hnext, hblock⟩ := hsame a List.mem_cons_self
    refine ⟨hchain.1, hblock, ?_⟩
    rw [hnext]
    exact ih hchain.2.2 fun b hb => hsame b (List.mem_cons_of_mem _ hb)

/-- The last block is made to point to a new one. -/
theorem extend {front : List A} {b a : A} (hchain : Chain h p (front ++ [b])) (hsame : ∀ x ∈ front,
      (h'.cells x).next = (h.cells x).next ∧ x ∈ h'.blocks)
    (hlast : (h'.cells b).next = some a ∧ b ∈ h'.blocks)
    (hnew : (h'.cells a).next = none ∧ a ∈ h'.blocks) :
    Chain h' p (front ++ [b] ++ [a]) := by
  induction front generalizing p with
  | nil => exact ⟨hchain.1, hlast.2, hlast.1, hnew.2, hnew.1⟩
  | cons x front ih =>
    obtain ⟨hnext, hblock⟩ := hsame x List.mem_cons_self
    refine ⟨hchain.1, hblock, ?_⟩
    rw [hnext]
    exact ih hchain.2.2 fun y hy => hsame y (List.mem_cons_of_mem _ hy)

theorem head_eq (hchain : Chain h p addrs) : p = addrs.head? := by
  cases addrs with
  | nil => exact hchain
  | cons a rest => exact hchain.1

end Chain

/-! ## Families of lists -/

/-- The lists with heads `heads` lie in the heap at the addresses `addrs`, and
`loose` is the one block that is in none of them. -/
structure Layout (h : Heap A V) (heads : I → Option A) (addrs : I → List A)
    (loose : Option A) : Prop where
  chain : ∀ i, Chain h (heads i) (addrs i)
  nodup : ∀ i, (addrs i).Nodup
  disjoint : ∀ {i j : I} {a : A}, a ∈ addrs i → a ∈ addrs j → i = j
  apart : ∀ {i : I} {a : A}, a ∈ addrs i → loose ≠ some a
  covers : ∀ a, a ∈ h.blocks ↔ (∃ i, a ∈ addrs i) ∨ loose = some a
  blocks_nodup : h.blocks.Nodup

namespace Layout

variable {h : Heap A V} {heads : I → Option A} {addrs : I → List A}
  {loose : Option A}

theorem mem_blocks (hl : Layout h heads addrs loose) {i : I} {a : A}
    (ha : a ∈ addrs i) : a ∈ h.blocks :=
  (hl.covers a).mpr (.inl ⟨i, ha⟩)

theorem loose_mem_blocks {a : A} (hl : Layout h heads addrs (some a)) : a ∈ h.blocks :=
  (hl.covers a).mpr (.inr rfl)

variable [DecidableEq I]

/-- The first block of a list is taken off. -/
theorem pop (hl : Layout h heads addrs none) {i : I} {a : A} {rest : List A}
    (hi : addrs i = a :: rest) :
    Layout h (Function.update heads i (h.cells a).next)
      (Function.update addrs i rest) (some a) := by
  have hnodup := hl.nodup i
  rw [hi] at hnodup
  obtain ⟨hnot, hrest⟩ := List.nodup_cons.mp hnodup
  -- what is in a list afterwards was in it before
  have hmem : ∀ {j : I} {b : A}, b ∈ Function.update addrs i rest j → b ∈ addrs j ∧ b ≠ a := by
    intro j b hb
    by_cases hj : j = i
    · subst hj
      rw [Function.update_self] at hb
      refine ⟨hi ▸ List.mem_cons_of_mem _ hb, ?_⟩
      rintro rfl
      exact hnot hb
    · rw [Function.update_of_ne hj] at hb
      refine ⟨hb, ?_⟩
      rintro rfl
      exact hj (hl.disjoint hb (hi ▸ List.mem_cons_self))
  constructor
  · intro j
    by_cases hj : j = i
    · subst hj
      rw [Function.update_self, Function.update_self]
      have hchain := hl.chain j
      rw [hi] at hchain
      exact hchain.2.2
    · rw [Function.update_of_ne hj, Function.update_of_ne hj]
      exact hl.chain j
  · intro j
    by_cases hj : j = i
    · subst hj
      rw [Function.update_self]
      exact hrest
    · rw [Function.update_of_ne hj]
      exact hl.nodup j
  · intro j k b hb hb'
    exact hl.disjoint (hmem hb).1 (hmem hb').1
  · intro j b hb heq
    exact (hmem hb).2 (Option.some.inj heq).symm
  · intro b
    rw [hl.covers]
    constructor
    · rintro (⟨j, hb⟩ | hb)
      · by_cases hba : b = a
        · exact .inr (by rw [hba])
        · refine .inl ⟨j, ?_⟩
          by_cases hj : j = i
          · subst hj
            rw [hi] at hb
            rw [Function.update_self]
            exact (List.mem_cons.mp hb).resolve_left hba
          · rwa [Function.update_of_ne hj]
      · cases hb
    · rintro (⟨j, hb⟩ | hb)
      · exact .inl ⟨j, (hmem hb).1⟩
      · cases hb
        exact .inl ⟨i, hi ▸ List.mem_cons_self⟩
  · exact hl.blocks_nodup

omit [DecidableEq I] in
/-- The lists change their names. -/
theorem reindex (hl : Layout h heads addrs loose) (σ : I ≃ I) :
    Layout h (heads ∘ σ) (addrs ∘ σ) loose where
  chain := fun i => hl.chain (σ i)
  nodup := fun i => hl.nodup (σ i)
  disjoint := fun hi hj => σ.injective (hl.disjoint hi hj)
  apart := fun hi => hl.apart hi
  covers := fun a => by
    rw [hl.covers]
    constructor
    · rintro (⟨i, hi⟩ | hloose)
      · exact .inl ⟨σ.symm i, by simpa using hi⟩
      · exact .inr hloose
    · rintro (⟨i, hi⟩ | hloose)
      · exact .inl ⟨σ i, hi⟩
      · exact .inr hloose
  blocks_nodup := hl.blocks_nodup

/-- A whole list is handed on to one that was empty. -/
theorem hand (hl : Layout h heads addrs loose) (i : I) {j : I} (hj : addrs j = []) :
    Layout h (Function.update (Function.update heads j (heads i)) i none)
      (Function.update (Function.update addrs j (addrs i)) i []) loose := by
  have hnone : heads j = none := by
    have hchain := hl.chain j
    rwa [hj] at hchain
  have hswap := hl.reindex (Equiv.swap i j)
  rw [Equiv.comp_swap_eq_update, Equiv.comp_swap_eq_update, hnone, hj] at hswap
  exact hswap

end Layout

/-! ## The operations -/

section

variable [DecidableEq A]

namespace Heap

/-- The block at an address. -/
def read (h : Heap A V) (a : A) : Option (Cell A V) :=
  if a ∈ h.blocks then some (h.cells a) else none

/-- The contents after `a->next` has been changed. -/
def withNext (h : Heap A V) (a : A) (p : Option A) : Heap A V :=
  { h with cells := Function.update h.cells a { h.cells a with next := p } }

/-- The assignment `a->next = p`. -/
def setNext (h : Heap A V) (a : A) (p : Option A) : Option (Heap A V) :=
  if a ∈ h.blocks then some (h.withNext a p) else none

/-- `malloc` returns a block that is not in use; it is filled at once. -/
def malloc (h : Heap A V) (a : A) (cell : Cell A V) : Option (Heap A V) :=
  if a ∈ h.blocks then none
  else some ⟨Function.update h.cells a cell, a :: h.blocks⟩

def free (h : Heap A V) (a : A) : Option (Heap A V) :=
  if a ∈ h.blocks then some { h with blocks := h.blocks.erase a } else none

theorem read_of_mem {h : Heap A V} {a : A} (ha : a ∈ h.blocks) :
    h.read a = some (h.cells a) := if_pos ha

theorem setNext_of_mem {h : Heap A V} {a : A} (ha : a ∈ h.blocks)
    (p : Option A) : h.setNext a p = some (h.withNext a p) := if_pos ha

@[simp] theorem blocks_withNext (h : Heap A V) (a : A) (p : Option A) :
    (h.withNext a p).blocks = h.blocks := rfl

@[simp] theorem next_withNext_self (h : Heap A V) (a : A) (p : Option A) :
    ((h.withNext a p).cells a).next = p := by
  simp [withNext]

theorem next_withNext_of_ne (h : Heap A V) {a b : A} (hb : b ≠ a)
    (p : Option A) : ((h.withNext a p).cells b).next = (h.cells b).next := by
  simp [withNext, Function.update_of_ne hb]

@[simp] theorem value_withNext (h : Heap A V) (a b : A) (p : Option A) :
    (h.withNext a p).value b = h.value b := by
  by_cases hb : b = a
  · subst hb
    simp [value, withNext]
  · simp [value, withNext, Function.update_of_ne hb]

end Heap

/-- Linking a block to the end of a list with a head and a tail pointer: the
heap after it, and the head.  A null tail stands for the head itself. -/
def linkBlock (h : Heap A V) (head tail : Option A) (a : A) :
    Option (Heap A V × Option A) :=
  match tail with
  | none => (h.setNext a none).map fun h => (h, some a)
  | some b => (h.setNext b (some a)).bind fun h =>
    (h.setNext a none).map fun h => (h, head)

namespace Layout

variable {h : Heap A V} {heads : I → Option A} {addrs : I → List A}
  {loose : Option A}

/-- A new block. -/
theorem malloc (hl : Layout h heads addrs none) {a : A} (ha : a ∉ h.blocks) (cell : Cell A V) :
    Layout ⟨Function.update h.cells a cell, a :: h.blocks⟩ heads addrs (some a) := by
  have hne : ∀ {i : I} {b : A}, b ∈ addrs i → b ≠ a := by
    rintro i b hb rfl
    exact ha (hl.mem_blocks hb)
  constructor
  · intro i
    refine (hl.chain i).congr ?_
    intro b hb
    refine ⟨?_, List.mem_cons_of_mem _ (hl.mem_blocks hb)⟩
    show (Function.update h.cells a cell b).next = _
    rw [Function.update_of_ne (hne hb)]
  · exact hl.nodup
  · exact hl.disjoint
  · intro i b hb heq
    exact hne hb (Option.some.inj heq).symm
  · intro b
    rw [List.mem_cons, hl.covers]
    simp only [reduceCtorEq, or_false, Option.some.injEq]
    tauto
  · exact List.nodup_cons.mpr ⟨ha, hl.blocks_nodup⟩

/-- The loose block is freed. -/
theorem free {a : A} (hl : Layout h heads addrs (some a)) :
    ∃ h', h.free a = some h' ∧ h'.cells = h.cells ∧ Layout h' heads addrs none := by
  have hmem : ∀ {b : A}, b ∈ h.blocks.erase a ↔ b ≠ a ∧ b ∈ h.blocks :=
    hl.blocks_nodup.mem_erase_iff
  have hne : ∀ {i : I} {b : A}, b ∈ addrs i → b ≠ a := by
    rintro i b hb rfl
    exact hl.apart hb rfl
  refine ⟨_, if_pos hl.loose_mem_blocks, rfl, ?_⟩
  constructor
  · intro i
    refine (hl.chain i).congr ?_
    intro b hb
    exact ⟨rfl, hmem.mpr ⟨hne hb, hl.mem_blocks hb⟩⟩
  · exact hl.nodup
  · exact hl.disjoint
  · intro i b _
    simp
  · intro b
    rw [hmem, hl.covers]
    simp only [reduceCtorEq, or_false, Option.some.injEq]
    constructor
    · rintro ⟨hba, ⟨i, hb⟩ | rfl⟩
      · exact ⟨i, hb⟩
      · exact absurd rfl hba
    · rintro ⟨i, hb⟩
      exact ⟨hne hb, .inl ⟨i, hb⟩⟩
  · exact hl.blocks_nodup.erase a

/-- The heap of `linkBlock`: the last block, if there is one, points to the new
one, and the new one is the end. -/
theorem linkBlock_eq {a : A} (hl : Layout h heads addrs (some a)) (i : I) :
    ∃ h' head, linkBlock h (heads i) (addrs i).getLast? a = some (h', head) ∧
      h'.blocks = h.blocks ∧ (∀ b, h'.value b = h.value b) ∧
      Chain h' head (addrs i ++ [a]) ∧
      ∀ b, b ∉ addrs i → b ≠ a → (h'.cells b).next = (h.cells b).next := by
  have ha := hl.loose_mem_blocks
  rcases List.eq_nil_or_concat (addrs i) with hnil | ⟨front, b, hfront⟩
  · rw [hnil]
    refine ⟨h.withNext a none, some a, ?_, rfl, fun b => by simp, ?_, ?_⟩
    · rw [List.getLast?_nil, linkBlock, Heap.setNext_of_mem ha, Option.map_some]
    · exact ⟨rfl, ha, Heap.next_withNext_self ..⟩
    · intro b _ hb
      exact h.next_withNext_of_ne hb none
  · rw [List.concat_eq_append] at hfront
    have hb : b ∈ addrs i := by
      rw [hfront]
      exact List.mem_append_right _ (List.mem_singleton_self b)
    have hba : b ≠ a := by
      rintro rfl
      exact hl.apart hb rfl
    have hother : ∀ x, x ≠ b → x ≠ a → (((h.withNext b (some a)).withNext a none).cells x).next =
          (h.cells x).next := by
      intro x hxb hxa
      rw [Heap.next_withNext_of_ne _ hxa, Heap.next_withNext_of_ne _ hxb]
    refine ⟨(h.withNext b (some a)).withNext a none, heads i, ?_, rfl, fun b => by simp, ?_, ?_⟩
    · rw [hfront, List.getLast?_concat, linkBlock,
        Heap.setNext_of_mem (hl.mem_blocks hb), Option.bind_some,
        Heap.setNext_of_mem (by exact ha), Option.map_some]
    · have hchain := hl.chain i
      have hnodup := hl.nodup i
      rw [hfront] at hchain hnodup ⊢
      obtain ⟨-, -, hdisjoint⟩ := List.nodup_append.mp hnodup
      refine hchain.extend ?_ ⟨?_, hl.mem_blocks hb⟩ ⟨?_, ha⟩
      · intro x hx
        have hxi : x ∈ addrs i := by
          rw [hfront]
          exact List.mem_append_left _ hx
        refine ⟨hother x (hdisjoint x hx b (List.mem_singleton_self b)) ?_, hl.mem_blocks hxi⟩
        rintro rfl
        exact hl.apart hxi rfl
      · rw [Heap.next_withNext_of_ne _ hba, Heap.next_withNext_self]
      · exact Heap.next_withNext_self ..
    · intro x hx hxa
      refine hother x ?_ hxa
      rintro rfl
      exact hx hb

variable [DecidableEq I]

/-- The loose block is linked to the end of a list. -/
theorem link {a : A} (hl : Layout h heads addrs (some a)) (i : I) :
    ∃ h' head, linkBlock h (heads i) (addrs i).getLast? a = some (h', head) ∧
      h'.blocks = h.blocks ∧ (∀ b, h'.value b = h.value b) ∧
      Layout h' (Function.update heads i head) (Function.update addrs i (addrs i ++ [a])) none := by
  obtain ⟨h', head, hlink, hblocks, hvalue, hchain, hsame⟩ := hl.linkBlock_eq i
  refine ⟨h', head, hlink, hblocks, hvalue, ?_⟩
  have hapart : ∀ {j : I}, a ∉ addrs j := fun ha => hl.apart ha rfl
  have hmem : ∀ {j : I} {b : A}, b ∈ Function.update addrs i (addrs i ++ [a]) j ↔
        b ∈ addrs j ∨ j = i ∧ b = a := by
    intro j b
    by_cases hj : j = i
    · subst hj
      simp
    · rw [Function.update_of_ne hj]
      simp [hj]
  constructor
  · intro j
    by_cases hj : j = i
    · subst hj
      rw [Function.update_self, Function.update_self]
      exact hchain
    · rw [Function.update_of_ne hj, Function.update_of_ne hj]
      refine (hl.chain j).congr ?_
      intro b hb
      refine ⟨hsame b ?_ ?_, hblocks ▸ hl.mem_blocks hb⟩
      · intro hbi
        exact hj (hl.disjoint hb hbi)
      · rintro rfl
        exact hapart hb
  · intro j
    by_cases hj : j = i
    · subst hj
      rw [Function.update_self]
      refine List.nodup_append.mpr ⟨hl.nodup j, List.nodup_singleton a, ?_⟩
      rintro b hb c hc rfl
      rw [List.mem_singleton] at hc
      subst hc
      exact hapart hb
    · rw [Function.update_of_ne hj]
      exact hl.nodup j
  · intro j k b hb hb'
    rcases hmem.mp hb with hold | ⟨hj, hba⟩
    · rcases hmem.mp hb' with hold' | ⟨-, hba⟩
      · exact hl.disjoint hold hold'
      · exact absurd (hba ▸ hold) hapart
    · rcases hmem.mp hb' with hold' | ⟨hk, -⟩
      · exact absurd (hba ▸ hold') hapart
      · rw [hj, hk]
  · intro j b _
    simp
  · intro b
    rw [hblocks, hl.covers]
    simp only [hmem, reduceCtorEq, or_false, Option.some.injEq]
    constructor
    · rintro (⟨j, hb⟩ | rfl)
      · exact ⟨j, .inl hb⟩
      · exact ⟨i, .inr ⟨rfl, rfl⟩⟩
    · rintro ⟨j, hb | ⟨rfl, rfl⟩⟩
      · exact .inl ⟨j, hb⟩
      · exact .inr rfl
  · rw [hblocks]
    exact hl.blocks_nodup

end Layout

end

end Lib
end GameServer
