import Mathlib.Tactic

/-!
# Associative containers

An associative container with unique keys is a partial function from keys to
values.  Lookup is application and erasing a key is `Function.update`; only
insertion needs a definition, because it keeps an entry that is already there.
-/

namespace GameServer
namespace Lib

variable {κ ν : Type*} [DecidableEq κ] {map : κ → Option ν} {key : κ}

/-- Insert an entry, unless the key has one already. -/
def mapInsert (map : κ → Option ν) (key : κ) (value : ν) : κ → Option ν :=
  match map key with
  | some _ => map
  | none => Function.update map key (some value)

theorem mapInsert_of_none (h : map key = none) (value : ν) :
    mapInsert map key value = Function.update map key (some value) := by
  rw [mapInsert, h]

theorem mapInsert_of_some {old : ν} (h : map key = some old) (value : ν) :
    mapInsert map key value = map := by
  rw [mapInsert, h]

theorem mapInsert_of_ne (map : κ → Option ν) {key' : κ} (h : key' ≠ key)
    (value : ν) : mapInsert map key value key' = map key' := by
  cases hmap : map key with
  | some _ => rw [mapInsert_of_some hmap]
  | none => rw [mapInsert_of_none hmap, Function.update_of_ne h]

/-- Inserting an entry leaves every other value where it is. -/
theorem mapInsert_eq_some_iff_of_ne {key' : κ} {value value' : ν} (h : value ≠ value') :
    mapInsert map key value key' = some value' ↔ map key' = some value' := by
  by_cases hkey : key' = key
  · subst hkey
    cases hmap : map key' with
    | some _ => rw [mapInsert_of_some hmap, hmap]
    | none => simp [mapInsert_of_none hmap, h]
  · rw [mapInsert_of_ne map hkey]

/-- What is found after a key has been erased was there under another key. -/
theorem update_none_eq_some_iff {erased : κ} {value : ν} :
    Function.update map erased none key = some value ↔ key ≠ erased ∧ map key = some value := by
  rw [Function.update_apply]
  split_ifs with h
  · simp [h]
  · simp [h]

/-- What is found after an entry has been written is that entry, or was there
under another key. -/
theorem update_some_eq_some_iff {written : κ} {entry value : ν} :
    Function.update map written (some entry) key = some value ↔
      key = written ∧ entry = value ∨ key ≠ written ∧ map key = some value := by
  rw [Function.update_apply]
  split_ifs with h
  · simp [h]
  · simp [h]

end Lib
end GameServer
