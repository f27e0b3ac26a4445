import GameServer.Lib.Transition
import Mathlib.Data.List.Infix

/-!
# An outbox with two priorities

Packages are accepted with one of two priorities and leave as one stream.  At
most one package is on its way at a time.  When none is, the next one is taken
from the packages of high priority, and from those of low priority only if no
other one waits.

The stream then consists of whole packages (`WholePackages`): only the last one
may be cut off, and the packages of each priority leave in the order in which
they were accepted.
-/

namespace GameServer
namespace Lib

variable {α : Type*}

/-- The priority of a package. -/
inductive Priority where
  | high
  | low
deriving Repr, DecidableEq

/-- The packages of one priority. -/
def packagesOf (p : Priority) (packages : List (Priority × List α)) :
    List (List α) :=
  (packages.filter (·.1 = p)).map (·.2)

@[simp] theorem packagesOf_nil (p : Priority) :
    packagesOf p ([] : List (Priority × List α)) = [] := rfl

@[simp] theorem packagesOf_append (p : Priority) (first second : List (Priority × List α)) :
    packagesOf p (first ++ second) = packagesOf p first ++ packagesOf p second := by
  simp [packagesOf]

@[simp] theorem packagesOf_singleton (p q : Priority) (package : List α) :
    packagesOf p [(q, package)] = if q = p then [package] else [] := by
  by_cases h : q = p <;> simp [packagesOf, h]

/-- What a list of packages is as a stream. -/
def streamOf (packages : List (Priority × List α)) : List α :=
  (packages.map (·.2)).flatten

@[simp] theorem streamOf_nil : streamOf ([] : List (Priority × List α)) = [] := rfl

@[simp] theorem streamOf_append (first second : List (Priority × List α)) :
    streamOf (first ++ second) = streamOf first ++ streamOf second := by
  simp [streamOf]

@[simp] theorem streamOf_singleton (p : Priority) (package : List α) :
    streamOf [(p, package)] = package := by
  simp [streamOf]

/-- The rest of a stream belongs to its last package. -/
def RestOfLast (packages : List (Priority × List α)) (rest : List α) : Prop :=
  rest = [] ∨ ∃ first p package, packages = first ++ [(p, package)] ∧
    rest <:+ package

/-- A stream consists of whole packages of the accepted ones, the last of which
may be cut off, with those of each priority in their order. -/
def WholePackages (accepted : List (Priority × List α)) (wire : List α) :
    Prop :=
  ∃ begun rest, wire ++ rest = streamOf begun ∧ RestOfLast begun rest ∧
    ∀ p, packagesOf p begun <+: packagesOf p accepted

/-- An outbox: the packages accepted and begun so far, what is left of the
package on its way, the packages that wait, and the stream. -/
structure Outbox (α : Type*) where
  accepted : List (Priority × List α)
  begun : List (Priority × List α)
  current : List α
  high : List (List α)
  low : List (List α)
  wire : List α

namespace Outbox

/-- What can happen to an outbox. -/
inductive Action (α : Type*) where
  /-- A package is accepted. -/
  | accept (p : Priority) (package : List α)
  /-- The next package is begun. -/
  | next
  /-- So many elements of the package on its way leave. -/
  | transmit (n : Nat)

/-- An outbox that has not accepted anything. -/
def empty : Outbox α := ⟨[], [], [], [], [], []⟩

/-- The packages of a priority that wait. -/
def waiting (o : Outbox α) : Priority → List (List α)
  | .high => o.high
  | .low => o.low

def step (o : Outbox α) : Action α → Option (Outbox α)
  | .accept .high package =>
    some { o with
      accepted := o.accepted ++ [(.high, package)]
      high := o.high ++ [package] }
  | .accept .low package =>
    some { o with
      accepted := o.accepted ++ [(.low, package)]
      low := o.low ++ [package] }
  | .next =>
    match o.current, o.high, o.low with
    | [], package :: rest, _ =>
      some { o with
        begun := o.begun ++ [(.high, package)]
        current := package
        high := rest }
    | [], [], package :: rest =>
      some { o with
        begun := o.begun ++ [(.low, package)]
        current := package
        low := rest }
    | _, _, _ => none
  | .transmit n =>
    some { o with
      current := o.current.drop n
      wire := o.wire ++ o.current.take n }

/-- The stream and the package on its way are the packages begun, and nothing
is lost or overtaken within a priority. -/
structure Ordered (o : Outbox α) : Prop where
  wire_append : o.wire ++ o.current = streamOf o.begun
  rest_of_last : RestOfLast o.begun o.current
  fifo : ∀ p, packagesOf p o.begun ++ o.waiting p = packagesOf p o.accepted

theorem ordered_empty : (empty : Outbox α).Ordered where
  wire_append := rfl
  rest_of_last := .inl rfl
  fifo := fun p => by cases p <;> rfl

variable {o o' : Outbox α}

theorem Ordered.accept (h : o.Ordered) {p : Priority} {package : List α}
    (hstep : o.step (.accept p package) = some o') : o'.Ordered := by
  cases p with
  | high =>
    cases hstep
    refine ⟨h.wire_append, h.rest_of_last, fun q => ?_⟩
    rw [packagesOf_append, ← h.fifo q]
    cases q <;> simp [waiting]
  | low =>
    cases hstep
    refine ⟨h.wire_append, h.rest_of_last, fun q => ?_⟩
    rw [packagesOf_append, ← h.fifo q]
    cases q <;> simp [waiting]

theorem Ordered.next (h : o.Ordered) (hstep : o.step .next = some o') : o'.Ordered := by
  obtain ⟨accepted, begun, current, high, low, wire⟩ := o
  obtain ⟨hwire, -, hfifo⟩ := h
  -- the package begun before is complete
  match current, high, low with
  | [], package :: rest, low =>
    cases hstep
    refine ⟨?_, .inr ⟨begun, .high, package, rfl, List.suffix_rfl⟩, fun q => ?_⟩
    · simpa using hwire
    · rw [← hfifo q]
      cases q <;> simp [waiting]
  | [], [], package :: rest =>
    cases hstep
    refine ⟨?_, .inr ⟨begun, .low, package, rfl, List.suffix_rfl⟩, fun q => ?_⟩
    · simpa using hwire
    · rw [← hfifo q]
      cases q <;> simp [waiting]

theorem Ordered.transmit (h : o.Ordered) {n : Nat}
    (hstep : o.step (.transmit n) = some o') : o'.Ordered := by
  cases hstep
  refine ⟨?_, ?_, h.fifo⟩
  · show o.wire ++ o.current.take n ++ o.current.drop n = streamOf o.begun
    rw [List.append_assoc, List.take_append_drop, h.wire_append]
  · have hsuffix := List.drop_suffix n o.current
    rcases h.rest_of_last with hnil | ⟨first, p, package, hbegun, hrest⟩
    · left
      show o.current.drop n = []
      rw [hnil, List.drop_nil]
    · exact .inr ⟨first, p, package, hbegun, hsuffix.trans hrest⟩

theorem Ordered.step (h : o.Ordered) {a : Action α} (hstep : o.step a = some o') : o'.Ordered := by
  cases a with
  | accept p package => exact h.accept hstep
  | next => exact h.next hstep
  | transmit n => exact h.transmit hstep

/-- **Whatever an outbox does, it stays ordered.** -/
theorem ordered_of_run {actions : List (Action α)}
    (hrun : runSteps step empty actions = some o) : o.Ordered :=
  runSteps_invariant (fun _ _ _ h hstep => h.step hstep) ordered_empty hrun

theorem Ordered.wholePackages (h : o.Ordered) : WholePackages o.accepted o.wire := by
  refine ⟨o.begun, o.current, h.wire_append, h.rest_of_last, fun p => ?_⟩
  rw [← h.fifo p]
  exact List.prefix_append ..

/-- Everything accepted has left once nothing waits and nothing is on its
way. -/
theorem Ordered.eq_of_idle (h : o.Ordered) (hcurrent : o.current = [])
    (hhigh : o.high = []) (hlow : o.low = []) :
    o.wire = streamOf o.begun ∧ ∀ p, packagesOf p o.begun = packagesOf p o.accepted := by
  constructor
  · rw [← h.wire_append, hcurrent, List.append_nil]
  · intro p
    have hwaiting : o.waiting p = [] := by
      cases p
      · exact hhigh
      · exact hlow
    rw [← h.fifo p, hwaiting, List.append_nil]

/-! ## Following another system -/

/-- The outbox can get from one state to another, accepting and sending this in
between. -/
def Reaches (o o' : Outbox α) (new : List (Priority × List α))
    (sent : List α) : Prop :=
  ∃ actions, runSteps step o actions = some o' ∧
    o'.accepted = o.accepted ++ new ∧ o'.wire = o.wire ++ sent

theorem Reaches.refl (o : Outbox α) : Reaches o o [] [] :=
  ⟨[], rfl, by simp, by simp⟩

theorem Reaches.trans {o₁ o₂ o₃ : Outbox α}
    {new new' : List (Priority × List α)} {sent sent' : List α}
    (h : Reaches o₁ o₂ new sent) (h' : Reaches o₂ o₃ new' sent') :
    Reaches o₁ o₃ (new ++ new') (sent ++ sent') := by
  obtain ⟨first, hfirst, haccepted, hwire⟩ := h
  obtain ⟨second, hsecond, haccepted', hwire'⟩ := h'
  refine ⟨first ++ second, ?_, ?_, ?_⟩
  · rw [runSteps_append, hfirst, Option.bind_some, hsecond]
  · rw [haccepted', haccepted, List.append_assoc]
  · rw [hwire', hwire, List.append_assoc]

/-- One step is a run. -/
theorem reaches_of_step {a : Action α} {new : List (Priority × List α)}
    {sent : List α} (hstep : o.step a = some o')
    (haccepted : o'.accepted = o.accepted ++ new)
    (hwire : o'.wire = o.wire ++ sent) : Reaches o o' new sent :=
  ⟨[a], by rw [runSteps_cons, hstep]; rfl, haccepted, hwire⟩

theorem reaches_accept_high (o : Outbox α) (package : List α) :
    ∃ o', Reaches o o' [(.high, package)] [] ∧ o'.current = o.current ∧
      o'.high = o.high ++ [package] ∧ o'.low = o.low :=
  ⟨_, reaches_of_step (a := .accept .high package) rfl rfl (by simp), rfl, rfl,
    rfl⟩

theorem reaches_accept_low (o : Outbox α) (package : List α) :
    ∃ o', Reaches o o' [(.low, package)] [] ∧ o'.current = o.current ∧
      o'.high = o.high ∧ o'.low = o.low ++ [package] :=
  ⟨_, reaches_of_step (a := .accept .low package) rfl rfl (by simp), rfl, rfl,
    rfl⟩

theorem reaches_next_high {package : List α} {rest : List (List α)}
    (hcurrent : o.current = []) (hhigh : o.high = package :: rest) :
    ∃ o', Reaches o o' [] [] ∧ o'.current = package ∧ o'.high = rest ∧ o'.low = o.low := by
  have hstep : o.step .next = some { o with
      begun := o.begun ++ [(.high, package)]
      current := package
      high := rest } := by
    simp only [step, hcurrent, hhigh]
  exact ⟨_, reaches_of_step hstep (by simp) (by simp), rfl, rfl, rfl⟩

theorem reaches_next_low {package : List α} {rest : List (List α)}
    (hcurrent : o.current = []) (hhigh : o.high = [])
    (hlow : o.low = package :: rest) :
    ∃ o', Reaches o o' [] [] ∧ o'.current = package ∧ o'.high = [] ∧ o'.low = rest := by
  have hstep : o.step .next = some { o with
      begun := o.begun ++ [(.low, package)]
      current := package
      low := rest } := by
    simp only [step, hcurrent, hhigh, hlow]
  exact ⟨_, reaches_of_step hstep (by simp) (by simp), rfl, hhigh, rfl⟩

theorem reaches_transmit (o : Outbox α) (n : Nat) :
    ∃ o', Reaches o o' [] (o.current.take n) ∧ o'.current = o.current.drop n ∧
      o'.high = o.high ∧ o'.low = o.low :=
  ⟨_, reaches_of_step (a := .transmit n) rfl (by simp) rfl, rfl, rfl, rfl⟩

/-- The package on its way leaves as a whole. -/
theorem reaches_transmit_all (o : Outbox α) :
    ∃ o', Reaches o o' [] o.current ∧ o'.current = [] ∧ o'.high = o.high ∧ o'.low = o.low := by
  obtain ⟨o', hreach, hcurrent, hhigh, hlow⟩ :=
    reaches_transmit o o.current.length
  rw [List.take_length] at hreach
  rw [List.drop_length] at hcurrent
  exact ⟨o', hreach, hcurrent, hhigh, hlow⟩

end Outbox

end Lib
end GameServer
