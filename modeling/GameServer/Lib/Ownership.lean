import Mathlib.Tactic

/-!
# Blocks of memory and their holders

A pool lends blocks of memory to holders: entries of a free list, elements of
containers, threads in the middle of a call.  `holds` says which block, if any,
a holder refers to, `store` what the blocks contain, and `fits` what a holder
relies on in the block it refers to.

`Sound` says that no block has two holders and that every holder finds what it
relies on.  Three rules cover the operations of such a pool: blocks change
hands without being written (`Sound.reindex`), one block changes hands and is
written on the way (`Sound.move`), or a block comes into being
(`Sound.fresh`).  In all of them holders may also let go of blocks.
-/

namespace GameServer
namespace Lib

variable {O R B : Type*}

/-- No block has two holders. -/
def Exclusive (holds : O → Option R) : Prop :=
  ∀ ⦃o o' : O⦄ ⦃r : R⦄, holds o = some r → holds o' = some r → o = o'

/-- No block has two holders, and every holder finds what it relies on. -/
structure Sound (holds : O → Option R) (store : R → Option B)
    (fits : O → R → B → Prop) : Prop where
  exclusive : Exclusive holds
  content : ∀ o r, holds o = some r → ∃ b, store r = some b ∧ fits o r b

section

variable {holds holds' : O → Option R} {store store' : R → Option B}
  {fits fits' : O → R → B → Prop}

theorem Sound.fits_of_store (h : Sound holds store fits) {o : O} {r : R} {b : B}
    (ho : holds o = some r) (hb : store r = some b) : fits o r b := by
  obtain ⟨b', hb', hfits⟩ := h.content o r ho
  rw [hb] at hb'
  cases hb'
  exact hfits

/-- Blocks change hands without being written: what a holder has afterwards
was with the holder `f` names, and no two of the new holders name the same. -/
theorem Sound.reindex (h : Sound holds store fits) (f : O → O) (hmap : ∀ o r, holds' o = some r →
      holds (f o) = some r ∧ store' r = store r ∧ ∀ b, fits (f o) r b → fits' o r b)
    (hinj : ∀ o o' r, holds' o = some r → holds' o' = some r → f o = f o' → o = o') :
    Sound holds' store' fits' where
  exclusive := by
    intro o o' r ho ho'
    exact hinj o o' r ho ho' (h.exclusive (hmap o r ho).1 (hmap o' r ho').1)
  content := by
    intro o r ho
    obtain ⟨hold, hstore, hfits⟩ := hmap o r ho
    obtain ⟨b, hb, hfit⟩ := h.content _ r hold
    exact ⟨b, hstore.trans hb, hfits b hfit⟩

/-- Holders keep what they have, or let go of it. -/
theorem Sound.keep (h : Sound holds store fits) (hmap : ∀ o r, holds' o = some r →
      holds o = some r ∧ store' r = store r ∧ ∀ b, fits o r b → fits' o r b) :
    Sound holds' store' fits' :=
  h.reindex id hmap fun _ _ _ _ _ heq => heq

/-- The common part of the two rules below: the holder `b` gets the block `r`,
which no other holder has, and only this block is written. -/
theorem Sound.place (h : Sound holds store fits) {b : O} {r : R}
    (hne : ∀ o r', o ≠ b → holds' o = some r' → r' ≠ r)
    (hb : ∀ r', holds' b = some r' → r' = r ∧ ∃ block, store' r = some block ∧ fits' b r block)
    (hother : ∀ o r', o ≠ b → holds' o = some r' →
      holds o = some r' ∧ ∀ block, fits o r' block → fits' o r' block)
    (hstore : ∀ r', r' ≠ r → store' r' = store r') :
    Sound holds' store' fits' := by
  constructor
  · intro o o' r' ho ho'
    by_cases hob : o = b
    · by_cases hob' : o' = b
      · rw [hob, hob']
      · exact (hne o' r' hob' ho' (hb r' (hob ▸ ho)).1).elim
    · by_cases hob' : o' = b
      · exact (hne o r' hob ho (hb r' (hob' ▸ ho')).1).elim
      · exact h.exclusive (hother o r' hob ho).1 (hother o' r' hob' ho').1
  · intro o r' ho
    by_cases hob : o = b
    · subst hob
      obtain ⟨rfl, hblock⟩ := hb r' ho
      exact hblock
    · obtain ⟨hold, hfits⟩ := hother o r' hob ho
      obtain ⟨block, hblock, hfit⟩ := h.content o r' hold
      refine ⟨block, ?_, hfits block hfit⟩
      rw [hstore r' (hne o r' hob ho), hblock]

/-- The block of `a` goes to `b` and is written; nothing else is. -/
theorem Sound.move (h : Sound holds store fits) {a b : O} {r : R} (ha : holds a = some r)
    (hb : ∀ r', holds' b = some r' → r' = r ∧ ∃ block, store' r = some block ∧ fits' b r block)
    (hother : ∀ o r', o ≠ b → holds' o = some r' →
      o ≠ a ∧ holds o = some r' ∧ ∀ block, fits o r' block → fits' o r' block)
    (hstore : ∀ r', r' ≠ r → store' r' = store r') :
    Sound holds' store' fits' := by
  refine h.place ?_ hb (fun o r' hob ho => (hother o r' hob ho).2) hstore
  rintro o r' hob ho rfl
  obtain ⟨hoa, hold, -⟩ := hother o r' hob ho
  exact hoa (h.exclusive hold ha)

/-- A block that was nowhere comes into being and goes to `b`. -/
theorem Sound.fresh (h : Sound holds store fits) {b : O} {r : R} (hfree : store r = none)
    (hb : ∀ r', holds' b = some r' → r' = r ∧ ∃ block, store' r = some block ∧ fits' b r block)
    (hother : ∀ o r', o ≠ b → holds' o = some r' →
      holds o = some r' ∧ ∀ block, fits o r' block → fits' o r' block)
    (hstore : ∀ r', r' ≠ r → store' r' = store r') :
    Sound holds' store' fits' := by
  refine h.place ?_ hb hother hstore
  rintro o r' hob ho rfl
  obtain ⟨block, hblock, -⟩ := h.content o r' (hother o r' hob ho).1
  rw [hfree] at hblock
  cases hblock

end

end Lib
end GameServer
