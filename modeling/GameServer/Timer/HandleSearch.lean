import GameServer.Timer.HandleReuse

/-!
# The handles a search goes through

The handles are the numbers `1 .. 2^32 - 2`, in a circle.  `m_dwCounter` walks
over two numbers more: `UINT32_MAX`, where the loop of `_GenerateHandleID`
turns round, and 0, which it passes on the way back to 1.

`triedHandles` records the values the loop has looked at and rejected.  As long
as a handle is left, the loop ends with one, and what it has rejected on the way
are the used handles that follow the counter in the circle, one after the other
(`exists_generated`).  The one exception is a counter of `UINT32_MAX`, from
which the first increment leads to 0; no run of the timer has such a counter
(`generateHandleID_of_run`).
-/

namespace GameServer
namespace Gametimer

open Lib

/-- The numbers that are handles. -/
def IsHandle (handle : UInt32) : Prop :=
  0 < handle ∧ handle < uint32Max

instance : DecidablePred IsHandle := fun handle =>
  inferInstanceAs (Decidable (0 < handle ∧ handle < uint32Max))

/-- The handle that follows in the circle of handles. -/
def nextHandle (handle : UInt32) : UInt32 :=
  if handle < uint32Max - 1 then handle + 1 else 1

/-- The values of `m_dwCounter` for which the loop of `_GenerateHandleID` goes
on. -/
def triedHandles (contextMap : UInt32 → Option Address) :
    Nat → UInt32 → List UInt32
  | 0, _ => []
  | rounds + 1, dwCounter =>
    if (contextMap dwCounter).isSome ∨ dwCounter ≥ uint32Max then
      let next := if dwCounter ≥ uint32Max then 0 else dwCounter
      dwCounter :: triedHandles contextMap rounds (next + 1)
    else
      []

/-- The first `n` handles that follow `dwCounter`. -/
def followingHandles (dwCounter : UInt32) (n : Nat) : List UInt32 :=
  (List.range n).map fun i => nextHandle^[i + 1] dwCounter

section Circle

variable {dwCounter handle : UInt32}

theorem toNat_uint32Max_pred : (uint32Max - 1).toNat = 2 ^ 32 - 2 := rfl

/-- Below `UINT32_MAX` an increment does not wrap. -/
theorem toNat_counter_succ (hcounter : dwCounter < uint32Max) :
    (dwCounter + 1).toNat = dwCounter.toNat + 1 := by
  rw [UInt32.lt_iff_toNat_lt, toNat_uint32Max] at hcounter
  rw [UInt32.toNat_add]
  show (dwCounter.toNat + 1) % 2 ^ 32 = dwCounter.toNat + 1
  omega

theorem isHandle_iff : IsHandle handle ↔ 0 < handle.toNat ∧ handle.toNat < 2 ^ 32 - 1 := by
  rw [IsHandle, UInt32.lt_iff_toNat_lt, UInt32.lt_iff_toNat_lt, toNat_uint32Max]
  rfl

/-- The increment leads to the next handle, unless it leads to `UINT32_MAX`. -/
theorem nextHandle_of_lt (hcounter : dwCounter < uint32Max)
    (hnext : dwCounter + 1 < uint32Max) : nextHandle dwCounter = dwCounter + 1 := by
  have hsucc := toNat_counter_succ hcounter
  rw [UInt32.lt_iff_toNat_lt, hsucc, toNat_uint32Max] at hnext
  rw [nextHandle, if_pos]
  rw [UInt32.lt_iff_toNat_lt, toNat_uint32Max_pred]
  omega

/-- From the last handle the circle leads to 1. -/
theorem nextHandle_of_ge (hcounter : dwCounter < uint32Max)
    (hnext : dwCounter + 1 ≥ uint32Max) : nextHandle dwCounter = 1 := by
  have hsucc := toNat_counter_succ hcounter
  rw [ge_iff_le, UInt32.le_iff_toNat_le, hsucc, toNat_uint32Max] at hnext
  rw [nextHandle, if_neg]
  rw [UInt32.lt_iff_toNat_lt, toNat_uint32Max_pred]
  omega

theorem nextHandle_zero : nextHandle 0 = 1 := rfl

theorem nextHandle_uint32Max : nextHandle uint32Max = 1 := rfl

/-- The increment of a value below `UINT32_MAX` is not 0. -/
theorem isHandle_succ (hcounter : dwCounter < uint32Max)
    (hnext : dwCounter + 1 < uint32Max) : IsHandle (dwCounter + 1) := by
  rw [UInt32.lt_iff_toNat_lt, toNat_uint32Max] at hnext
  rw [isHandle_iff]
  refine ⟨?_, hnext⟩
  rw [toNat_counter_succ hcounter]
  exact Nat.succ_pos _

/-- What follows depends on the handle that comes first only. -/
theorem followingHandles_congr {other : UInt32}
    (h : nextHandle dwCounter = nextHandle other) (n : Nat) :
    followingHandles dwCounter n = followingHandles other n := by
  unfold followingHandles
  refine List.map_congr_left fun i _ => ?_
  rw [Function.iterate_succ_apply, Function.iterate_succ_apply, h]

theorem followingHandles_succ (dwCounter : UInt32) (n : Nat) :
    followingHandles dwCounter (n + 1) =
      nextHandle dwCounter :: followingHandles (nextHandle dwCounter) n := by
  unfold followingHandles
  rw [List.range_succ_eq_map, List.map_cons, List.map_map]
  rfl

end Circle

/-- A search that goes on from `dwCounter`, rejects the values of `tried` and
ends with `handle`. -/
structure CircularSearch (contextMap : UInt32 → Option Address)
    (dwCounter handle : UInt32) (tried : List UInt32) (n : Nat) : Prop where
  ends : nextHandle^[n + 1] dwCounter = handle
  isHandle : IsHandle handle
  unused : contextMap handle = none
  tried_eq : tried.filter IsHandle = followingHandles dwCounter n
  used : ∀ other ∈ followingHandles dwCounter n, (contextMap other).isSome

section Search

variable {contextMap : UInt32 → Option Address} {dwCounter handle : UInt32}
  {tried : List UInt32} {n : Nat}

/-- The search may as well have begun at another value before the same
handle. -/
theorem CircularSearch.of_nextHandle_eq {other : UInt32}
    (h : CircularSearch contextMap other handle tried n)
    (hnext : nextHandle dwCounter = nextHandle other) :
    CircularSearch contextMap dwCounter handle tried n where
  ends := by
    rw [Function.iterate_succ_apply, hnext, ← Function.iterate_succ_apply]
    exact h.ends
  isHandle := h.isHandle
  unused := h.unused
  tried_eq := by
    rw [followingHandles_congr hnext]
    exact h.tried_eq
  used := by
    rw [followingHandles_congr hnext]
    exact h.used

/-- A rejected value that is no handle does not count. -/
theorem CircularSearch.cons_of_not_isHandle {value : UInt32}
    (h : CircularSearch contextMap dwCounter handle tried n)
    (hvalue : ¬ IsHandle value) :
    CircularSearch contextMap dwCounter handle (value :: tried) n where
  ends := h.ends
  isHandle := h.isHandle
  unused := h.unused
  tried_eq := by
    rw [List.filter_cons_of_neg (by simpa using hvalue)]
    exact h.tried_eq
  used := h.used

/-- A used handle is rejected before the search from there on. -/
theorem CircularSearch.cons_of_used
    (h : CircularSearch contextMap (nextHandle dwCounter) handle tried n)
    (hhandle : IsHandle (nextHandle dwCounter))
    (hused : (contextMap (nextHandle dwCounter)).isSome) :
    CircularSearch contextMap dwCounter handle (nextHandle dwCounter :: tried) (n + 1) where
  ends := by
    rw [Function.iterate_succ_apply]
    exact h.ends
  isHandle := h.isHandle
  unused := h.unused
  tried_eq := by
    rw [List.filter_cons_of_pos (by simpa using hhandle), h.tried_eq, followingHandles_succ]
  used := by
    intro other hother
    rw [followingHandles_succ] at hother
    rcases List.mem_cons.mp hother with rfl | hother
    · exact hused
    · exact h.used other hother

/-- The loop of `_GenerateHandleID`, if it ends, has searched the circle. -/
theorem circularSearch_of_generateHandleLoop {rounds : Nat} (hcounter : dwCounter < uint32Max)
    (h : generateHandleLoop contextMap rounds (dwCounter + 1) = some handle) :
    ∃ n, CircularSearch contextMap dwCounter handle
      (triedHandles contextMap rounds (dwCounter + 1)) n := by
  induction rounds generalizing dwCounter with
  | zero => cases h
  | succ rounds ih =>
    rw [generateHandleLoop] at h
    rw [triedHandles]
    by_cases hmax : dwCounter + 1 ≥ uint32Max
    · -- the loop turns round: UINT32_MAX, then 0, then 1
      rw [if_pos (.inr hmax)] at h ⊢
      simp only [if_pos hmax] at h ⊢
      obtain ⟨n, hsearch⟩ := ih (by decide) h
      refine ⟨n, (hsearch.of_nextHandle_eq ?_).cons_of_not_isHandle ?_⟩
      · rw [nextHandle_of_ge hcounter hmax, nextHandle_zero]
      · exact fun hhandle => UInt32.not_lt.mpr hmax hhandle.2
    · have hlt : dwCounter + 1 < uint32Max := UInt32.not_le.mp hmax
      have hnext := nextHandle_of_lt hcounter hlt
      have hhandle := isHandle_succ hcounter hlt
      by_cases hused : (contextMap (dwCounter + 1)).isSome
      · rw [if_pos (.inl hused)] at h ⊢
        simp only [if_neg hmax] at h ⊢
        obtain ⟨n, hsearch⟩ := ih hlt h
        rw [← hnext] at hsearch hused hhandle ⊢
        exact ⟨n + 1, hsearch.cons_of_used hhandle hused⟩
      · have hexit : ¬ ((contextMap (dwCounter + 1)).isSome ∨
            dwCounter + 1 ≥ uint32Max) := not_or.mpr ⟨hused, hmax⟩
        rw [if_neg hexit] at h ⊢
        cases h
        refine ⟨0, hnext, hhandle, ?_, rfl, ?_⟩
        · exact Option.not_isSome_iff_eq_none.mp hused
        · intro other hother
          cases hother

/-- A loop that ends does so with any larger number of rounds too. -/
theorem generateHandleLoop_mono {rounds more : Nat} (hle : rounds ≤ more)
    (h : generateHandleLoop contextMap rounds dwCounter = some handle) :
    generateHandleLoop contextMap more dwCounter = some handle := by
  induction rounds generalizing dwCounter more with
  | zero => cases h
  | succ rounds ih =>
    obtain ⟨more, rfl⟩ := Nat.exists_eq_add_of_le' (Nat.le_of_succ_le hle)
    cases more with
    | zero => exact absurd hle (by omega)
    | succ more =>
      rw [generateHandleLoop] at h
      rw [show more + 1 + rounds = (more + rounds) + 1 by omega, generateHandleLoop]
      by_cases hbusy : (contextMap dwCounter).isSome ∨ dwCounter ≥ uint32Max
      · rw [if_pos hbusy] at h ⊢
        exact ih (Nat.le_add_left _ _) h
      · rw [if_neg hbusy] at h ⊢
        exact h

/-- The loop ends as long as a handle is left: within one turn it comes to
it. -/
theorem exists_generateHandleLoop (hcounter : dwCounter < uint32Max)
    (hleft : ∃ handle, IsHandle handle ∧ contextMap handle = none) :
    ∃ handle, generateHandleLoop contextMap UInt32.size (dwCounter + 1) = some handle := by
  obtain ⟨other, hother, hnone⟩ := hleft
  have hpos : other ≠ 0 := by
    rintro rfl
    exact absurd hother (by decide)
  obtain ⟨j, hj, hprobe⟩ := exists_probe dwCounter hpos
  have hfound : ∃ k, Unused contextMap (probe dwCounter k) :=
    ⟨j, by rw [hprobe]; exact ⟨hnone, hother.2⟩⟩
  classical
  -- the first of the probes that can be taken
  refine ⟨probe dwCounter (Nat.find hfound), ?_⟩
  rw [← probe_zero hcounter, generateHandleLoop_eq_some_iff]
  have hfirst : Nat.find hfound ≤ j := Nat.find_min' hfound (by
    rw [hprobe]
    exact ⟨hnone, hother.2⟩)
  refine ⟨Nat.find hfound, ?_, by rw [Nat.zero_add], Nat.find_spec hfound, ?_⟩
  · show _ < 2 ^ 32
    omega
  · intro i hi
    rw [Nat.zero_add]
    exact Nat.find_min hfound hi

/-- The whole of `_GenerateHandleID` from a counter below `UINT32_MAX`. -/
theorem exists_generated (hcounter : dwCounter < uint32Max)
    (hleft : ∃ handle, IsHandle handle ∧ contextMap handle = none)
    {rounds : Nat} (hrounds : UInt32.size ≤ rounds) :
    ∃ handle n, generateHandleLoop contextMap rounds (dwCounter + 1) = some handle ∧
      CircularSearch contextMap dwCounter handle
        (triedHandles contextMap rounds (dwCounter + 1)) n := by
  obtain ⟨handle, hloop⟩ := exists_generateHandleLoop hcounter hleft
  have hmore := generateHandleLoop_mono hrounds hloop
  obtain ⟨n, hsearch⟩ := circularSearch_of_generateHandleLoop hcounter hmore
  exact ⟨handle, n, hmore, hsearch⟩

/-- At `UINT32_MAX` the counter wraps to 0.  If 0 is in the map, the loop goes
on to 1, as it does from a counter of 0. -/
theorem generateHandleLoop_wrap (hzero : (contextMap 0).isSome) (rounds : Nat) :
    generateHandleLoop contextMap (rounds + 1) (uint32Max + 1) =
      generateHandleLoop contextMap rounds (0 + 1) := by
  have hsum : uint32Max + 1 = 0 := by decide
  rw [hsum, generateHandleLoop, if_pos (.inl hzero)]
  rfl

theorem triedHandles_wrap (hzero : (contextMap 0).isSome) (rounds : Nat) :
    triedHandles contextMap (rounds + 1) (uint32Max + 1) =
      0 :: triedHandles contextMap rounds (0 + 1) := by
  have hsum : uint32Max + 1 = 0 := by decide
  rw [hsum, triedHandles, if_pos (.inl hzero)]
  rfl

/-- `_GenerateHandleID` ends with a fresh handle, however many handles are in
use, and has tried the used ones in their order.  Only a counter of
`UINT32_MAX` must find 0 in the map. -/
theorem generateHandleID_ends (contextMap : UInt32 → Option Address) (dwCounter : UInt32)
    (hcounter : dwCounter = uint32Max → (contextMap 0).isSome)
    (hleft : ∃ handle, IsHandle handle ∧ contextMap handle = none) :
    ∃ handle n, generateHandleID contextMap dwCounter = some handle ∧
      (∀ rounds, UInt32.size < rounds →
        generateHandleLoop contextMap rounds (dwCounter + 1) = some handle) ∧
      IsHandle handle ∧ contextMap handle = none ∧
      nextHandle^[n + 1] dwCounter = handle ∧
      (triedHandles contextMap (UInt32.size + 1) (dwCounter + 1)).filter
        IsHandle = followingHandles dwCounter n ∧
      ∀ other ∈ followingHandles dwCounter n, (contextMap other).isSome := by
  have hsearched : ∃ handle n, generateHandleLoop contextMap (UInt32.size + 1) (dwCounter + 1) =
        some handle ∧
      CircularSearch contextMap dwCounter handle
        (triedHandles contextMap (UInt32.size + 1) (dwCounter + 1)) n := by
    by_cases hlt : dwCounter < uint32Max
    · exact exists_generated hlt hleft (Nat.le_succ _)
    · -- one round more, after which the counter is where it is after 0
      obtain rfl : dwCounter = uint32Max := by
        rw [UInt32.lt_iff_toNat_lt, toNat_uint32Max] at hlt
        have hbound := dwCounter.toNat_lt
        rw [← UInt32.toNat_inj, toNat_uint32Max]
        omega
      have hzero := hcounter rfl
      have hbelow : (0 : UInt32) < uint32Max := by decide
      obtain ⟨handle, n, hloop, hsearch⟩ :=
        exists_generated hbelow hleft (Nat.le_refl _)
      refine ⟨handle, n, ?_, ?_⟩
      · rw [generateHandleLoop_wrap hzero, hloop]
      · rw [triedHandles_wrap hzero]
        refine (hsearch.of_nextHandle_eq ?_).cons_of_not_isHandle (by decide)
        rw [nextHandle_uint32Max, nextHandle_zero]
  obtain ⟨handle, n, hloop, hsearch⟩ := hsearched
  exact ⟨handle, n, hloop, fun rounds hrounds =>
    generateHandleLoop_mono hrounds hloop, hsearch.isHandle, hsearch.unused,
    hsearch.ends, hsearch.tried_eq, hsearch.used⟩

/-- The counter is at the last handle and 1 is in use: the search turns round,
passes over 1 and ends. -/
theorem generateHandleID_ends_turned :
    ∃ handle n,
      generateHandleID (fun handle => if handle = 1 then some 7 else none)
        (uint32Max - 1) = some handle ∧
      nextHandle^[n + 1] (uint32Max - 1) = handle ∧ IsHandle handle ∧
      handle ≠ 1 := by
  obtain ⟨handle, n, hgenerate, -, hhandle, hunused, hends, -⟩ :=
    generateHandleID_ends (fun handle => if handle = 1 then some 7 else none)
      (uint32Max - 1) (by decide) ⟨2, by decide, by decide⟩
  refine ⟨handle, n, hgenerate, hends, hhandle, ?_⟩
  rintro rfl
  cases hunused

/-- With an empty map every handle is left, and still 0 is returned from
`UINT32_MAX`, where the increment wraps. -/
theorem generateHandleID_uint32Max :
    (∀ handle, (fun _ => none : UInt32 → Option Address) handle = none) ∧
    generateHandleID (fun _ => none) uint32Max = some 0 ∧
    ¬ ∃ handle, generateHandleID (fun _ => none) uint32Max = some handle ∧ IsHandle handle := by
  have hzero : generateHandleID (fun _ => none) uint32Max = some 0 :=
    generateHandleID_of_free rfl (by decide)
  refine ⟨fun _ => rfl, hzero, ?_⟩
  rintro ⟨handle, hgenerate, hhandle⟩
  rw [hzero] at hgenerate
  cases hgenerate
  exact absurd hhandle (by decide)

end Search

namespace GameTimer

variable {κ ρ : Type*}

/-- In every run the counter is below `UINT32_MAX`, so every call that has a
handle left gets one by going round the circle. -/
theorem generateHandleID_of_run {actions : List (Action κ ρ)}
    {s : GameTimer κ ρ} (hrun : runSteps step construct actions = some s)
    (hleft : ∃ handle, IsHandle handle ∧ s.contextMap handle = none) :
    ∃ handle n, generateHandleID s.contextMap s.dwCounter = some handle ∧
      CircularSearch s.contextMap s.dwCounter handle
        (triedHandles s.contextMap (UInt32.size + 1) (s.dwCounter + 1)) n := by
  have hinv : s.HandleInv :=
    runSteps_invariant handleInv_step handleInv_construct hrun
  exact exists_generated hinv.counter hleft (Nat.le_succ _)

end GameTimer
end Gametimer
end GameServer
