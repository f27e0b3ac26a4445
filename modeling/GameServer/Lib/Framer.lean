import Mathlib.Tactic

/-!
# Framing a byte stream incrementally

A stream protocol is described by one function that looks at the front of the
input and answers with one of three things: more input is needed, here is one
frame and the rest, or the input is invalid.  `Framer` packages such a function
with the two laws that make a frame boundary independent of what follows it.

From the laws alone follows that cutting the stream into chunks is invisible:
parsing chunk by chunk, keeping the unparsed remainder in between, delivers the
frames and the verdict of one parse of the whole stream (`feed_eq_parse`).
-/

namespace GameServer
namespace Lib

variable {β P E : Type*}

/-- What can be seen at the front of an input. -/
inductive Scan (β P E : Type*) where
  /-- No decision yet: the input ends before the first frame does. -/
  | more
  /-- One complete frame, and the input that follows it. -/
  | frame (packet : P) (rest : List β)
  /-- The input starts with an invalid frame. -/
  | fail (error : E)

/-- A framing function.  A decision, once taken, does not depend on the input
that follows, and every frame consumes at least one symbol. -/
structure Framer (β P E : Type*) where
  next : List β → Scan β P E
  frame_shorter : ∀ {xs rest : List β} {p : P},
    next xs = .frame p rest → rest.length < xs.length
  frame_append : ∀ {xs rest : List β} {p : P} (ys : List β),
    next xs = .frame p rest → next (xs ++ ys) = .frame p (rest ++ ys)
  fail_append : ∀ {xs : List β} {e : E} (ys : List β),
    next xs = .fail e → next (xs ++ ys) = .fail e

/-- The result of parsing an input: the frames found, the error that ended the
parse if there was one, and the input from the first symbol not consumed. -/
structure Parse (β P E : Type*) where
  packets : List P
  error : Option E
  rest : List β

namespace Framer

/-- Parse frames until more input is needed or one of them is invalid. -/
def parse (F : Framer β P E) (xs : List β) : Parse β P E :=
  match h : F.next xs with
  | .more => ⟨[], none, xs⟩
  | .fail e => ⟨[], some e, xs⟩
  | .frame p rest =>
    have : rest.length < xs.length := F.frame_shorter h
    let tail := F.parse rest
    ⟨p :: tail.packets, tail.error, tail.rest⟩
termination_by xs.length

variable (F : Framer β P E) {xs ys rest : List β} {p : P} {e : E}

theorem parse_of_more (h : F.next xs = .more) : F.parse xs = ⟨[], none, xs⟩ := by
  rw [parse]
  split
  · rfl
  · rename_i hfail
    rw [h] at hfail
    cases hfail
  · rename_i hframe
    rw [h] at hframe
    cases hframe

theorem parse_of_fail (h : F.next xs = .fail e) : F.parse xs = ⟨[], some e, xs⟩ := by
  rw [parse]
  split
  · rename_i hmore
    rw [h] at hmore
    cases hmore
  · rename_i hfail
    rw [h] at hfail
    cases hfail
    rfl
  · rename_i hframe
    rw [h] at hframe
    cases hframe

theorem parse_of_frame (h : F.next xs = .frame p rest) :
    F.parse xs =
      ⟨p :: (F.parse rest).packets, (F.parse rest).error, (F.parse rest).rest⟩ := by
  rw [parse]
  split
  · rename_i hmore
    rw [h] at hmore
    cases hmore
  · rename_i hfail
    rw [h] at hfail
    cases hfail
  · rename_i hframe
    rw [h] at hframe
    cases hframe
    rfl

/-- Induction along a parse: one case for each answer of `next`. -/
theorem parse_induction {motive : List β → Prop} (more : ∀ xs, F.next xs = .more → motive xs)
    (fail : ∀ xs e, F.next xs = .fail e → motive xs)
    (frame : ∀ xs p rest, F.next xs = .frame p rest → motive rest → motive xs)
    (xs : List β) : motive xs := by
  induction hn : xs.length using Nat.strong_induction_on generalizing xs with
  | _ n ih =>
    cases hnext : F.next xs with
    | more => exact more xs hnext
    | fail e => exact fail xs e hnext
    | frame p rest =>
      have hshort := F.frame_shorter hnext
      exact frame xs p rest hnext (ih rest.length (by omega) rest rfl)

/-- The remainder of a parse without error needs more input. -/
theorem next_rest_of_error_none (h : (F.parse xs).error = none) :
    F.next (F.parse xs).rest = .more := by
  induction xs using F.parse_induction with
  | more xs hmore => rw [F.parse_of_more hmore]; exact hmore
  | fail xs e hfail => rw [F.parse_of_fail hfail] at h; cases h
  | frame xs p rest hframe ih =>
    rw [F.parse_of_frame hframe] at h ⊢
    exact ih h

/-- A parse without error resumes where it stopped when more input follows. -/
theorem parse_append_of_error_none (h : (F.parse xs).error = none) (ys : List β) :
    F.parse (xs ++ ys) =
      let later := F.parse ((F.parse xs).rest ++ ys)
      ⟨(F.parse xs).packets ++ later.packets, later.error, later.rest⟩ := by
  induction xs using F.parse_induction with
  | more xs hmore => simp [F.parse_of_more hmore]
  | fail xs e hfail => rw [F.parse_of_fail hfail] at h; cases h
  | frame xs p rest hframe ih =>
    rw [F.parse_of_frame hframe] at h ⊢
    rw [F.parse_of_frame (F.frame_append ys hframe), ih h]
    rfl

/-- A parse that ended in an error ends in the same one, at the same frame,
whatever follows. -/
theorem parse_append_of_error_some (h : (F.parse xs).error = some e) (ys : List β) :
    F.parse (xs ++ ys) = ⟨(F.parse xs).packets, some e, (F.parse xs).rest ++ ys⟩ := by
  induction xs using F.parse_induction with
  | more xs hmore => rw [F.parse_of_more hmore] at h; cases h
  | fail xs e' hfail =>
    rw [F.parse_of_fail hfail] at h ⊢
    cases h
    rw [F.parse_of_fail (F.fail_append ys hfail)]
  | frame xs p rest hframe ih =>
    rw [F.parse_of_frame hframe] at h ⊢
    rw [F.parse_of_frame (F.frame_append ys hframe), ih h]

/-- Parse a stream that arrives in chunks.  Between two chunks the unparsed
remainder is kept; the first error ends everything. -/
def feed (F : Framer β P E) : List β → List (List β) → Parse β P E
  | held, [] => ⟨[], none, held⟩
  | held, chunk :: chunks =>
    let now := F.parse (held ++ chunk)
    match now.error with
    | some e => ⟨now.packets, some e, now.rest⟩
    | none =>
      let later := F.feed now.rest chunks
      ⟨now.packets ++ later.packets, later.error, later.rest⟩

theorem feed_cons_of_error_some {held chunk : List β} (chunks : List (List β))
    (h : (F.parse (held ++ chunk)).error = some e) :
    F.feed held (chunk :: chunks) = ⟨(F.parse (held ++ chunk)).packets, some e,
        (F.parse (held ++ chunk)).rest⟩ := by
  simp only [feed, h]

theorem feed_cons_of_error_none {held chunk : List β}
    (chunks : List (List β)) (h : (F.parse (held ++ chunk)).error = none) :
    F.feed held (chunk :: chunks) =
      let later := F.feed (F.parse (held ++ chunk)).rest chunks
      ⟨(F.parse (held ++ chunk)).packets ++ later.packets, later.error, later.rest⟩ := by
  simp only [feed, h]

/-- **Chunking is invisible.**  From a remainder that needs more input, feeding
the chunks of a stream one by one finds the frames and the verdict of one parse
of everything; without an error it also leaves the same remainder. -/
theorem feed_eq_parse {held : List β} (hheld : F.next held = .more) (chunks : List (List β)) :
    (F.feed held chunks).packets = (F.parse (held ++ chunks.flatten)).packets ∧
      (F.feed held chunks).error = (F.parse (held ++ chunks.flatten)).error ∧
      ((F.feed held chunks).error = none → (F.feed held chunks).rest =
          (F.parse (held ++ chunks.flatten)).rest) := by
  induction chunks generalizing held with
  | nil =>
    rw [List.flatten_nil, List.append_nil, F.parse_of_more hheld]
    exact ⟨rfl, rfl, fun _ => rfl⟩
  | cons chunk chunks ih =>
    rw [List.flatten_cons, ← List.append_assoc]
    cases herror : (F.parse (held ++ chunk)).error with
    | some e =>
      rw [F.feed_cons_of_error_some chunks herror, F.parse_append_of_error_some herror]
      exact ⟨rfl, rfl, fun hnone => by cases hnone⟩
    | none =>
      obtain ⟨hpackets, hverdict, hrest⟩ :=
        ih (F.next_rest_of_error_none herror)
      rw [F.feed_cons_of_error_none chunks herror, F.parse_append_of_error_none herror]
      exact ⟨congrArg ((F.parse (held ++ chunk)).packets ++ ·) hpackets, hverdict, hrest⟩

end Framer

end Lib
end GameServer
