import Mathlib.Data.List.Basic

/-!
# Runs of a partial step function

A concurrent component is modelled by a state type, a type of actions and a
partial step function: `step s a = none` means that the action is not enabled
in `s`.  An interleaving of the component's threads is then a list of actions,
and a run is the successive application of `step` along that list.

This module supplies the rules every development over such a system uses:

* `runSteps_invariant`: what one step preserves, a whole run preserves;
* `runSteps_invariant_of_meets`: the same for runs all of whose steps meet a
  side condition on the state before the step and the action;
* `forall_reached_iff_runMeets`: when the side condition is also necessary, it
  characterises the runs along which a property holds;
* `runSteps_simulates_of_meets`: a step-wise simulation, in which one concrete
  step is matched by a list of abstract events, lifts to such runs;
* `length_add_potential_le` and `exists_final_run`: a potential that every step
  lowers bounds the length of the runs, and a system that is never stuck before
  its final states then reaches one.
-/

namespace GameServer
namespace Lib

variable {S A R E : Type*}

/-- Perform the actions of a list one after the other.  The run is undefined
as soon as one of them is not enabled. -/
def runSteps (step : S → A → Option S) : S → List A → Option S
  | s, [] => some s
  | s, a :: rest => (step s a).bind fun s' => runSteps step s' rest

@[simp] theorem runSteps_nil (step : S → A → Option S) (s : S) : runSteps step s [] = some s := rfl

theorem runSteps_cons (step : S → A → Option S) (s : S) (a : A) (rest : List A) :
    runSteps step s (a :: rest) = (step s a).bind fun s' => runSteps step s' rest := rfl

/-- Splitting off the first step of a run. -/
theorem runSteps_cons_eq_some_iff {step : S → A → Option S} {s t : S} {a : A}
    {rest : List A} :
    runSteps step s (a :: rest) = some t ↔
      ∃ s', step s a = some s' ∧ runSteps step s' rest = some t := by
  rw [runSteps_cons, Option.bind_eq_some_iff]

/-- A run over a concatenation is a run over the first list followed by a run
over the second one. -/
theorem runSteps_append (step : S → A → Option S) (s : S) (first second : List A) :
    runSteps step s (first ++ second) =
      (runSteps step s first).bind fun s' => runSteps step s' second := by
  induction first generalizing s with
  | nil => rfl
  | cons a rest ih =>
    rw [List.cons_append, runSteps_cons, runSteps_cons, Option.bind_assoc]
    congr 1
    funext s'
    exact ih s'

/-- Every step of the run from `s` meets `Cond`, a condition on the state
before the step and on the action. -/
def RunMeets (step : S → A → Option S) (Cond : S → A → Prop) :
    S → List A → Prop
  | _, [] => True
  | s, a :: rest =>
    Cond s a ∧ ∀ s', step s a = some s' → RunMeets step Cond s' rest

/-- A condition that follows from an invariant, along a run whose actions keep
the invariant. -/
theorem runMeets_of_invariant {step : S → A → Option S} {Cond : S → A → Prop}
    {Inv : S → Prop} {Allowed : A → Prop}
    (hkeep : ∀ s a s', Inv s → Allowed a → step s a = some s' → Inv s')
    (hcond : ∀ s a, Inv s → Allowed a → Cond s a) {s : S} {actions : List A}
    (hinit : Inv s) (hactions : ∀ a ∈ actions, Allowed a) :
    RunMeets step Cond s actions := by
  induction actions generalizing s with
  | nil => trivial
  | cons a rest ih =>
    have ha := hactions a List.mem_cons_self
    refine ⟨hcond s a hinit ha, fun s' hstep => ?_⟩
    exact ih (hkeep s a s' hinit ha hstep) fun b hb =>
      hactions b (List.mem_cons_of_mem a hb)

/-- A condition that the actions of a run meet in every state. -/
theorem runMeets_of_forall {step : S → A → Option S} {Cond : S → A → Prop}
    {actions : List A} (h : ∀ a ∈ actions, ∀ s, Cond s a) (s : S) :
    RunMeets step Cond s actions := by
  have hkeep : ∀ (s : S) (a : A) (s' : S), True → (∀ s, Cond s a) →
      step s a = some s' → True := fun _ _ _ _ _ _ => trivial
  exact runMeets_of_invariant hkeep (fun s _ _ ha => ha s) trivial h

/-- A condition on the actions alone, along a run that takes place. -/
theorem runMeets_iff_forall {step : S → A → Option S} {Allowed : A → Prop}
    {s t : S} {actions : List A} (hrun : runSteps step s actions = some t) :
    RunMeets step (fun _ a => Allowed a) s actions ↔ ∀ a ∈ actions, Allowed a := by
  refine ⟨fun hmeets => ?_, fun h => runMeets_of_forall (fun a ha _ => h a ha) s⟩
  induction actions generalizing s with
  | nil => exact fun a ha => nomatch ha
  | cons a rest ih =>
    obtain ⟨s', hstep, hrest⟩ := runSteps_cons_eq_some_iff.mp hrun
    exact List.forall_mem_cons.mpr ⟨hmeets.1, ih hrest (hmeets.2 s' hstep)⟩

/-- A run over a concatenation meets the condition when both parts do. -/
theorem runMeets_append {step : S → A → Option S} {Cond : S → A → Prop}
    {s : S} {first second : List A} :
    RunMeets step Cond s (first ++ second) ↔ RunMeets step Cond s first ∧
      ∀ s', runSteps step s first = some s' → RunMeets step Cond s' second := by
  induction first generalizing s with
  | nil =>
    constructor
    · intro hmeets
      refine ⟨trivial, fun s' hrun => ?_⟩
      cases hrun
      exact hmeets
    · intro hmeets
      exact hmeets.2 s rfl
  | cons a rest ih =>
    constructor
    · rintro ⟨hcond, hmeets⟩
      refine ⟨⟨hcond, fun s' hstep => (ih.mp (hmeets s' hstep)).1⟩, ?_⟩
      intro t hrun
      obtain ⟨s', hstep, hrest⟩ := runSteps_cons_eq_some_iff.mp hrun
      exact (ih.mp (hmeets s' hstep)).2 t hrest
    · rintro ⟨⟨hcond, hfirst⟩, hsecond⟩
      refine ⟨hcond, fun s' hstep => ih.mpr ⟨hfirst s' hstep, ?_⟩⟩
      intro t hrest
      exact hsecond t (runSteps_cons_eq_some_iff.mpr ⟨s', hstep, hrest⟩)

/-- Two conditions that a run meets. -/
theorem runMeets_and {step : S → A → Option S} {Cond Cond' : S → A → Prop}
    {s : S} {actions : List A} (h : RunMeets step Cond s actions)
    (h' : RunMeets step Cond' s actions) :
    RunMeets step (fun s a => Cond s a ∧ Cond' s a) s actions := by
  induction actions generalizing s with
  | nil => trivial
  | cons a rest ih =>
    exact ⟨⟨h.1, h'.1⟩, fun s' hstep => ih (h.2 s' hstep) (h'.2 s' hstep)⟩

/-- Two conditions that agree wherever a run that keeps an invariant takes a
step. -/
theorem runMeets_congr {step : S → A → Option S} {Cond Cond' : S → A → Prop}
    {Inv : S → Prop}
    (hkeep : ∀ s a s', Inv s → step s a = some s' → Inv s')
    (hiff : ∀ s a s', Inv s → step s a = some s' → (Cond s a ↔ Cond' s a))
    {s t : S} {actions : List A} (hinit : Inv s)
    (hrun : runSteps step s actions = some t) :
    RunMeets step Cond s actions ↔ RunMeets step Cond' s actions := by
  induction actions generalizing s with
  | nil => exact Iff.rfl
  | cons a rest ih =>
    obtain ⟨s', hstep, hrest⟩ := runSteps_cons_eq_some_iff.mp hrun
    refine and_congr (hiff s a s' hinit hstep) (forall₂_congr ?_)
    intro s'' hstep'
    obtain rfl : s' = s'' := Option.some.inj (hstep.symm.trans hstep')
    exact ih (hkeep s a s' hinit hstep) hrest

/-- Whether the steps of a run meet a decidable condition can be computed. -/
instance decidableRunMeets (step : S → A → Option S) (Cond : S → A → Prop)
    [∀ s a, Decidable (Cond s a)] :
    ∀ (s : S) (actions : List A), Decidable (RunMeets step Cond s actions)
  | _, [] => isTrue trivial
  | s, a :: rest =>
    match hstep : step s a with
    | none => decidable_of_iff (Cond s a) (by simp [RunMeets, hstep])
    | some s' =>
      have := decidableRunMeets step Cond s' rest
      decidable_of_iff (Cond s a ∧ RunMeets step Cond s' rest)
        (by simp [RunMeets, hstep])

/-- The invariant rule for runs all of whose steps meet a side condition. -/
theorem runSteps_invariant_of_meets {step : S → A → Option S}
    {Cond : S → A → Prop} {Inv : S → Prop}
    (hstep : ∀ s a s', Inv s → Cond s a → step s a = some s' → Inv s')
    {s t : S} {actions : List A} (hinit : Inv s)
    (hmeets : RunMeets step Cond s actions)
    (hrun : runSteps step s actions = some t) : Inv t := by
  induction actions generalizing s with
  | nil =>
    rw [runSteps_nil, Option.some.injEq] at hrun
    exact hrun ▸ hinit
  | cons a rest ih =>
    obtain ⟨s', hfirst, hrest⟩ := runSteps_cons_eq_some_iff.mp hrun
    obtain ⟨hcond, hlater⟩ := hmeets
    exact ih (hstep s a s' hinit hcond hfirst) (hlater s' hfirst) hrest

/-- What one step preserves, a whole run preserves. -/
theorem runSteps_invariant {step : S → A → Option S} {Inv : S → Prop}
    (hstep : ∀ s a s', Inv s → step s a = some s' → Inv s')
    {s t : S} {actions : List A} (hinit : Inv s)
    (hrun : runSteps step s actions = some t) : Inv t := by
  have hmeets : RunMeets step (fun _ _ => True) s actions :=
    runMeets_of_forall (fun _ _ _ => trivial) s
  exact runSteps_invariant_of_meets
    (fun s a s' hinv _ hnext => hstep s a s' hinv hnext) hinit hmeets hrun

/-- **When a property holds all along a run.**  In runs all of whose steps meet
`Given`, suppose that steps meeting `Cond` keep the invariant `Inv`, that `Inv`
gives the property `P`, and that `P` after a step from an `Inv` state requires
`Cond`.  Then `P` holds in every state such a run passes through exactly when
all its steps meet `Cond`. -/
theorem forall_reached_iff_runMeets_of_meets {step : S → A → Option S}
    {Given Cond : S → A → Prop} {Inv P : S → Prop}
    (hkeep : ∀ s a s', Inv s → Given s a ∧ Cond s a → step s a = some s' → Inv s')
    (hneed : ∀ s a s', Inv s → Given s a → step s a = some s' → P s' → Cond s a)
    (hprop : ∀ s, Inv s → P s) {s t : S} {actions : List A} (hinit : Inv s)
    (hgiven : RunMeets step Given s actions)
    (hrun : runSteps step s actions = some t) :
    (∀ first rest r, actions = first ++ rest → runSteps step s first = some r → P r) ↔
      RunMeets step Cond s actions := by
  induction actions generalizing s with
  | nil =>
    refine ⟨fun _ => trivial, ?_⟩
    intro _ first rest r hsplit hfirst
    obtain ⟨rfl, rfl⟩ := List.nil_eq_append_iff.mp hsplit
    cases hfirst
    exact hprop s hinit
  | cons a rest ih =>
    obtain ⟨s', hstep, hrest⟩ := runSteps_cons_eq_some_iff.mp hrun
    have hrest' := hgiven.2 s' hstep
    constructor
    · intro hall
      have hcond : Cond s a := by
        apply hneed s a s' hinit hgiven.1 hstep
        apply hall [a] rest s' rfl
        exact runSteps_cons_eq_some_iff.mpr ⟨s', hstep, rfl⟩
      refine ⟨hcond, ?_⟩
      intro s'' hstep'
      obtain rfl : s' = s'' := Option.some.inj (hstep.symm.trans hstep')
      have hinv := hkeep s a s' hinit ⟨hgiven.1, hcond⟩ hstep
      refine (ih hinv hrest' hrest).mp ?_
      intro first later r hsplit hfirst
      apply hall (a :: first) later r (by rw [hsplit, List.cons_append])
      exact runSteps_cons_eq_some_iff.mpr ⟨s', hstep, hfirst⟩
    · rintro ⟨hcond, hlater⟩ first later r hsplit hfirst
      cases first with
      | nil =>
        cases hfirst
        exact hprop s hinit
      | cons b first =>
        rw [List.cons_append, List.cons.injEq] at hsplit
        obtain ⟨rfl, hsplit⟩ := hsplit
        obtain ⟨s'', hstep', hfirst⟩ :=
          runSteps_cons_eq_some_iff.mp hfirst
        obtain rfl : s' = s'' := Option.some.inj (hstep.symm.trans hstep')
        have hinv := hkeep s a s' hinit ⟨hgiven.1, hcond⟩ hstep
        exact (ih hinv hrest' hrest).mpr (hlater s' hstep) first later r hsplit hfirst

/-- The same for all runs. -/
theorem forall_reached_iff_runMeets {step : S → A → Option S}
    {Cond : S → A → Prop} {Inv P : S → Prop}
    (hkeep : ∀ s a s', Inv s → Cond s a → step s a = some s' → Inv s')
    (hneed : ∀ s a s', Inv s → step s a = some s' → P s' → Cond s a)
    (hprop : ∀ s, Inv s → P s) {s t : S} {actions : List A} (hinit : Inv s)
    (hrun : runSteps step s actions = some t) :
    (∀ first rest r, actions = first ++ rest → runSteps step s first = some r → P r) ↔
      RunMeets step Cond s actions := by
  have hmeets : RunMeets step (fun _ _ => True) s actions :=
    runMeets_of_forall (fun _ _ _ => trivial) s
  exact forall_reached_iff_runMeets_of_meets (fun s a s' hinv hcond => hkeep s a s' hinv hcond.2)
    (fun s a s' hinv _ => hneed s a s' hinv) hprop hinit hmeets hrun

/-- The events a run shows: those of its steps, in order. -/
def traceOf (step : S → A → Option S) (obs : S → A → List E) :
    S → List A → List E
  | _, [] => []
  | s, a :: rest =>
    obs s a ++
      match step s a with
      | none => []
      | some s' => traceOf step obs s' rest

theorem traceOf_cons_of_step {step : S → A → Option S} {s s' : S} {a : A}
    (obs : S → A → List E) (rest : List A) (h : step s a = some s') :
    traceOf step obs s (a :: rest) = obs s a ++ traceOf step obs s' rest := by
  simp only [traceOf, h]

/-- **Simulation.**  If every concrete step from related states that meets the
side condition is matched by the abstract steps of the events it shows, then
the abstract system can follow the whole trace of every concrete run whose
steps meet the condition, and ends in a related state. -/
theorem runSteps_simulates_of_meets {step : S → A → Option S}
    {obs : S → A → List E} {astep : R → E → Option R} {Cond : S → A → Prop}
    {Rel : S → R → Prop}
    (hstep : ∀ s a s' r, Rel s r → Cond s a → step s a = some s' →
      ∃ r', runSteps astep r (obs s a) = some r' ∧ Rel s' r')
    {s t : S} {r : R} {actions : List A} (hinit : Rel s r)
    (hmeets : RunMeets step Cond s actions)
    (hrun : runSteps step s actions = some t) :
    ∃ r', runSteps astep r (traceOf step obs s actions) = some r' ∧ Rel t r' := by
  induction actions generalizing s r with
  | nil =>
    rw [runSteps_nil, Option.some.injEq] at hrun
    exact ⟨r, rfl, hrun ▸ hinit⟩
  | cons a rest ih =>
    obtain ⟨s', hfirst, hrest⟩ := runSteps_cons_eq_some_iff.mp hrun
    obtain ⟨hcond, hlater⟩ := hmeets
    obtain ⟨r₁, hmatch, hrel⟩ := hstep s a s' r hinit hcond hfirst
    obtain ⟨r₂, htail, hfinal⟩ := ih hrel (hlater s' hfirst) hrest
    refine ⟨r₂, ?_, hfinal⟩
    rw [traceOf_cons_of_step obs rest hfirst, runSteps_append, hmatch, Option.bind_some]
    exact htail

/-- **Step by step.**  If every concrete step from related states is matched by
one abstract step, the abstract system can follow every concrete run. -/
theorem runSteps_follows {step : S → A → Option S} {astep : R → E → Option R}
    {f : A → E} {Rel : S → R → Prop}
    (hstep : ∀ s a s' r, Rel s r → step s a = some s' → ∃ r', astep r (f a) = some r' ∧ Rel s' r')
    {s t : S} {r : R} {actions : List A} (hinit : Rel s r)
    (hrun : runSteps step s actions = some t) :
    ∃ r', runSteps astep r (actions.map f) = some r' ∧ Rel t r' := by
  induction actions generalizing s r with
  | nil =>
    rw [runSteps_nil, Option.some.injEq] at hrun
    exact ⟨r, rfl, hrun ▸ hinit⟩
  | cons a rest ih =>
    obtain ⟨s', hfirst, hrest⟩ := runSteps_cons_eq_some_iff.mp hrun
    obtain ⟨r₁, hmatch, hrel⟩ := hstep s a s' r hinit hfirst
    obtain ⟨r₂, htail, hfinal⟩ := ih hrel hrest
    refine ⟨r₂, ?_, hfinal⟩
    rw [List.map_cons, runSteps_cons, hmatch, Option.bind_some]
    exact htail

/-- A run along which something ceases to hold has a step that ends it. -/
theorem exists_ending_step {step : S → A → Option S} {P : S → Prop} {s t : S}
    {actions : List A} (hstart : P s) (hend : ¬ P t)
    (hrun : runSteps step s actions = some t) :
    ∃ before a after m m', actions = before ++ a :: after ∧
      runSteps step s before = some m ∧ step m a = some m' ∧ P m ∧ ¬ P m' := by
  induction actions generalizing s with
  | nil =>
    cases hrun
    exact absurd hstart hend
  | cons a rest ih =>
    obtain ⟨s', hstep, hrest⟩ := runSteps_cons_eq_some_iff.mp hrun
    by_cases hs' : P s'
    · obtain ⟨before, b, after, m, m', rfl, hbefore, hrest⟩ := ih hs' hrest
      refine ⟨a :: before, b, after, m, m', rfl, ?_, hrest⟩
      rw [runSteps_cons, hstep]
      exact hbefore
    · exact ⟨[], a, rest, s, s', rfl, rfl, hstep, hstart, hs'⟩

/-- A run is no longer than the potential it uses up. -/
theorem length_add_potential_le {step : S → A → Option S} {Inv : S → Prop}
    {potential : S → Nat}
    (hkeep : ∀ s a s', Inv s → step s a = some s' → Inv s')
    (hlower : ∀ s a s', Inv s → step s a = some s' →
      potential s' < potential s) {s t : S} {actions : List A} (hinit : Inv s)
    (hrun : runSteps step s actions = some t) :
    actions.length + potential t ≤ potential s := by
  induction actions generalizing s with
  | nil =>
    cases hrun
    exact Nat.le_of_eq (Nat.zero_add _)
  | cons a rest ih =>
    obtain ⟨s', hstep, hrest⟩ := runSteps_cons_eq_some_iff.mp hrun
    have hlater := ih (hkeep s a s' hinit hstep) hrest
    have hfirst := hlower s a s' hinit hstep
    rw [List.length_cons]
    omega

/-- A system that is never stuck before its final states reaches one of them. -/
theorem exists_final_run {step : S → A → Option S} {Inv Final : S → Prop}
    {potential : S → Nat}
    (hkeep : ∀ s a s', Inv s → step s a = some s' → Inv s')
    (hlower : ∀ s a s', Inv s → step s a = some s' → potential s' < potential s)
    (hnext : ∀ s, Inv s → ¬ Final s → ∃ a, (step s a).isSome) {s : S}
    (hinit : Inv s) :
    ∃ actions t, runSteps step s actions = some t ∧ Final t := by
  induction hp : potential s using Nat.strongRecOn generalizing s with
  | ind p ih =>
    by_cases hfinal : Final s
    · exact ⟨[], s, rfl, hfinal⟩
    · obtain ⟨a, ha⟩ := hnext s hinit hfinal
      obtain ⟨s', hstep⟩ := Option.isSome_iff_exists.mp ha
      obtain ⟨actions, t, hrun, hend⟩ := ih (potential s')
        (hp ▸ hlower s a s' hinit hstep) (hkeep s a s' hinit hstep) rfl
      exact ⟨a :: actions, t, runSteps_cons_eq_some_iff.mpr ⟨s', hstep, hrun⟩, hend⟩

end Lib
end GameServer
