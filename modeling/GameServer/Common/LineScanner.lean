import GameServer.Lib.CString

/-!
# The line scanner of the configuration

`LineScanner` of `config.cpp`: a cursor into one line of the file, and an error
flag that silences the loops while it is set.  `match` overwrites the flag with
its own result and moves the cursor in any case, also over the NUL.

Every read goes through `charAt`, so a read behind the NUL has no result.  The
lemmas say what each operation does in front of a given text; `before` is the
scanner that stands there without an error.  Two of them give the scanner's
character away: `consumeTill` looks for one character and trims what it has
passed, `consumeTillEnd` stops at the first white space of the value.
-/

namespace GameServer
namespace Conf

open Lib

/-- `LineScanner`: the cursor, as an index into the line, and the flag. -/
structure LineScanner where
  p : Nat
  err : Bool
deriving Repr, DecidableEq

namespace LineScanner

/-- The constructor. -/
def construct : LineScanner := ⟨0, false⟩

variable (ln : Text)

/-- `skipSpaces`. -/
def skipSpaces (ls : LineScanner) : Option LineScanner :=
  if ls.err then
    some ls
  else
    (advanceWhile ln isSpace ls.p).map fun p => { ls with p := p }

/-- `rstrip`. -/
def rstrip (s e : Nat) : Option Text :=
  (retreatWhile ln isSpace s e).map fun e => textBetween ln s e

/-- `peekChar`, with the scanner after it. -/
def peekChar (ls : LineScanner) : Option (UInt8 × LineScanner) := do
  let ls ← ls.skipSpaces ln
  let c ← charAt ln ls.p
  return (c, ls)

/-- `skip`. -/
def skip (ls : LineScanner) (i : Nat) : LineScanner :=
  { ls with p := ls.p + i }

/-- `match`. -/
def matchChar (ls : LineScanner) (c : UInt8) : Option LineScanner := do
  let ls ← ls.skipSpaces ln
  let read ← charAt ln ls.p
  return ⟨ls.p + 1, read != c⟩

/-- `consumeTill`, with the scanner after it. -/
def consumeTill (ls : LineScanner) (c : UInt8) : Option (Text × LineScanner) := do
  let ls ← ls.skipSpaces ln
  let e ← if ls.err then some ls.p else advanceWhile ln (· != c) ls.p
  let found ← charAt ln e
  if found != c then
    return ([], { ls with err := true })
  else
    let text ← rstrip ln ls.p e
    return (text, { ls with p := e })

/-- The loop of `consumeTillEnd`. -/
def tillEndFrom (wasspace : Bool) (e : Nat) : Option Nat :=
  match _ : charAt ln e with
  | none => none
  | some c =>
    if c = 0 ∨ c = 59 ∨ c = 35 then
      some e
    else if wasspace then
      some e
    else
      tillEndFrom (isSpace c) (e + 1)
termination_by ln.length + 1 - e
decreasing_by
  have := lt_of_charAt ‹_›
  omega

/-- `consumeTillEnd`; the scanner is not used after it. -/
def consumeTillEnd (ls : LineScanner) : Option Text := do
  let ls ← ls.skipSpaces ln
  let e ← if ls.err then some ls.p else tillEndFrom ln false ls.p
  rstrip ln ls.p e

/-! ## In front of a text -/

/-- The scanner that has `text` in front of it, and no error. -/
def before (text : Text) : LineScanner :=
  ⟨posOf ln text, false⟩

theorem construct_eq_before : construct = before ln ln := by
  rw [before, posOf_self]
  rfl

variable {ln}

section Text

variable {text : Text} (hsuffix : text <:+ ln) (hnul : 0 ∉ ln)

include hsuffix

/-- A suffix of a line without NUL has none. -/
theorem not_mem_of_suffix {part : Text} (hpart : part <:+ text) (hnul : 0 ∉ ln) : 0 ∉ part :=
  fun hmem => hnul ((hpart.trans hsuffix).mem hmem)

theorem skip_before {c : UInt8} {rest : Text} (htext : text = c :: rest) :
    (before ln text).skip 1 = before ln rest := by
  subst htext
  rw [skip, before, before, ← posOf_tail hsuffix]

/-- What lies between two positions, trimmed on the right. -/
theorem rstrip_posOf {word rest : Text} (htext : text = word ++ rest) :
    rstrip ln (posOf ln text) (posOf ln rest) = some (word.rdropWhile isSpace) := by
  subst htext
  obtain ⟨trimmed, hword, hloop⟩ := retreatWhile_posOf isSpace word hsuffix
  have hbetween : textBetween ln (posOf ln (word ++ rest))
      (posOf ln (trimmed ++ rest)) = word.rdropWhile isSpace := by
    have hassoc : word ++ rest = word.rdropWhile isSpace ++ (trimmed ++ rest) := by
      rw [← List.append_assoc, ← hword]
    rw [hassoc]
    exact textBetween_posOf (hassoc ▸ hsuffix)
  rw [rstrip, hloop, Option.map_some, hbetween]

include hnul

theorem skipSpaces_before :
    (before ln text).skipSpaces ln =
      some (before ln (text.dropWhile isSpace)) := by
  have hloop := advanceWhile_posOf isSpace hsuffix
    (not_mem_of_suffix hsuffix (List.suffix_refl text) hnul)
  rw [skipSpaces, if_neg (by simp [before]), before, hloop]
  rfl

theorem peekChar_before :
    (before ln text).peekChar ln = some ((text.dropWhile isSpace).headD 0,
        before ln (text.dropWhile isSpace)) := by
  have hread := charAt_posOf ((List.dropWhile_suffix isSpace).trans hsuffix)
  rw [peekChar, skipSpaces_before hsuffix hnul]
  simp [before, hread]

/-- `match` at its character. -/
theorem matchChar_before {c : UInt8} {rest : Text} (htext : text = c :: rest)
    (hc : isSpace c = false) :
    (before ln text).matchChar ln c = some (before ln rest) := by
  subst htext
  have hdrop : (c :: rest).dropWhile isSpace = c :: rest :=
    List.dropWhile_cons_of_neg (by simp [hc])
  have hread := charAt_posOf hsuffix
  rw [matchChar, skipSpaces_before hsuffix hnul, hdrop]
  simp [before, hread, ← posOf_tail hsuffix]

/-- `consumeTill` where its character comes, or where it looks for the NUL. -/
theorem consumeTill_before {c : UInt8} {word rest : Text}
    (htext : text.dropWhile isSpace = word ++ rest) (hword : c ∉ word)
    (hrest : rest.headD 0 = c) :
    (before ln text).consumeTill ln c = some (word.rdropWhile isSpace, before ln rest) := by
  have hskipped : text.dropWhile isSpace <:+ ln :=
    (List.dropWhile_suffix isSpace).trans hsuffix
  rw [htext] at hskipped
  have hdrop : (word ++ rest).dropWhile (· != c) = rest := by
    rw [List.dropWhile_append_of_pos]
    · cases rest with
      | nil => rfl
      | cons d tail =>
        rw [List.headD_cons] at hrest
        exact List.dropWhile_cons_of_neg (by simp [hrest])
    · intro d hd
      simpa using fun heq : d = c => hword (heq ▸ hd)
  have hloop := advanceWhile_posOf (· != c) hskipped
    (not_mem_of_suffix hskipped (List.suffix_refl _) hnul)
  have hread := charAt_posOf ((List.suffix_append word rest).trans hskipped)
  rw [hdrop] at hloop
  rw [hrest] at hread
  rw [consumeTill, skipSpaces_before hsuffix hnul, htext]
  simp [before, hloop, hread, rstrip_posOf hskipped rfl]

/-- `consumeTill` where its character does not come: the flag is set. -/
theorem consumeTill_before_of_not_mem {c : UInt8} (hc : c ≠ 0)
    (htext : c ∉ text.dropWhile isSpace) :
    (before ln text).consumeTill ln c =
      some ([], { before ln (text.dropWhile isSpace) with err := true }) := by
  have hskipped : text.dropWhile isSpace <:+ ln :=
    (List.dropWhile_suffix isSpace).trans hsuffix
  have hdrop : (text.dropWhile isSpace).dropWhile (· != c) = [] := by
    rw [List.dropWhile_eq_nil_iff]
    intro d hd
    simpa using fun heq : d = c => htext (heq ▸ hd)
  have hloop := advanceWhile_posOf (· != c) hskipped
    (not_mem_of_suffix hskipped (List.suffix_refl _) hnul)
  have hread := charAt_posOf (List.nil_suffix (l := ln))
  rw [hdrop] at hloop
  rw [consumeTill, skipSpaces_before hsuffix hnul]
  simp [before, hloop, hread, Ne.symm hc]

end Text

/-! ## While the flag is set -/

theorem peekChar_err {ls : LineScanner} (herr : ls.err = true) {c : UInt8}
    (hread : charAt ln ls.p = some c) : ls.peekChar ln = some (c, ls) := by
  simp [peekChar, skipSpaces, herr, hread]

theorem matchChar_err {ls : LineScanner} (herr : ls.err = true) {c d : UInt8}
    (hread : charAt ln ls.p = some d) :
    ls.matchChar ln c = some ⟨ls.p + 1, d != c⟩ := by
  simp [matchChar, skipSpaces, herr, hread]

/-- Nothing is read, wherever the cursor is. -/
theorem consumeTillEnd_err {ls : LineScanner} (herr : ls.err = true) :
    ls.consumeTillEnd ln = some [] := by
  have hretreat : retreatWhile ln isSpace ls.p ls.p = some ls.p := by
    cases ls.p with
    | zero => rfl
    | succ e => rw [retreatWhile, if_neg (Nat.lt_irrefl _)]
  simp [consumeTillEnd, skipSpaces, herr, rstrip, hretreat, textBetween]

/-! ## The value of a line -/

/-- The characters that a value consists of. -/
def isValueChar (c : UInt8) : Bool :=
  c != 59 && c != 35 && !isSpace c

/-- The text that `consumeTillEnd` extracts: up to a comment or to the first
white space. -/
def valueOf (text : Text) : Text :=
  (text.dropWhile isSpace).takeWhile isValueChar

theorem isSpace_of_isValueChar {c : UInt8} (h : isValueChar c = true) : isSpace c = false := by
  simp only [isValueChar, Bool.and_eq_true, Bool.not_eq_true'] at h
  exact h.2

section Text

variable {text : Text} (hsuffix : text <:+ ln) (hnul : 0 ∉ ln)

include hsuffix

theorem tillEndFrom_true : tillEndFrom ln true (posOf ln text) = some (posOf ln text) := by
  rw [tillEndFrom]
  split
  · next hread => simp [charAt_posOf hsuffix] at hread
  · simp

include hnul

/-- The loop passes the value, and at most one white space behind it. -/
theorem tillEndFrom_false :
    ∃ space rest, (∀ c ∈ space, isSpace c = true) ∧
      text = text.takeWhile isValueChar ++ (space ++ rest) ∧
      tillEndFrom ln false (posOf ln text) = some (posOf ln rest) := by
  induction text with
  | nil =>
    refine ⟨[], [], by simp, by simp, ?_⟩
    rw [tillEndFrom]
    split
    · next hread => simp [charAt_posOf hsuffix] at hread
    · next c hread =>
      rw [charAt_posOf hsuffix, Option.some.injEq] at hread
      rw [if_pos (.inl hread.symm)]
  | cons c tail ih =>
    have htail : tail <:+ ln := (List.suffix_cons c tail).trans hsuffix
    have hc : c ≠ 0 := fun heq =>
      not_mem_of_suffix hsuffix (List.suffix_refl _) hnul (by simp [heq])
    rw [tillEndFrom]
    split
    · next hread => simp [charAt_posOf hsuffix] at hread
    · next d hread =>
      rw [charAt_posOf hsuffix, Option.some.injEq, List.headD_cons] at hread
      subst hread
      by_cases hcomment : c = 59 ∨ c = 35
      · -- a comment ends the value
        refine ⟨[], c :: tail, by simp, ?_, ?_⟩
        · rw [List.takeWhile_cons_of_neg]
          · rfl
          · rcases hcomment with rfl | rfl <;> decide
        · rw [if_pos (.inr hcomment)]
      · rw [if_neg (fun h => h.elim hc hcomment), if_neg (by decide), posOf_tail hsuffix]
        cases hspace : isSpace c with
        | true =>
          -- the white space is still passed
          refine ⟨[c], tail, by simpa using hspace, ?_, tillEndFrom_true htail⟩
          rw [List.takeWhile_cons_of_neg (by simp [isValueChar, hspace])]
          rfl
        | false =>
          obtain ⟨space, rest, hallspace, htext, hloop⟩ := ih htail
          refine ⟨space, rest, hallspace, ?_, hloop⟩
          have hvalue : isValueChar c = true := by
            rw [not_or] at hcomment
            simp [isValueChar, hspace, hcomment]
          rw [List.takeWhile_cons_of_pos hvalue, List.cons_append, ← htext]

/-- What `consumeTillEnd` extracts. -/
theorem consumeTillEnd_before : (before ln text).consumeTillEnd ln = some (valueOf text) := by
  have hskipped : text.dropWhile isSpace <:+ ln :=
    (List.dropWhile_suffix isSpace).trans hsuffix
  obtain ⟨space, rest, hallspace, htext, hloop⟩ :=
    tillEndFrom_false hskipped hnul
  have hstrip : (valueOf text ++ space).rdropWhile isSpace = valueOf text :=
    rdropWhile_append_of_forall hallspace fun c hc =>
      isSpace_of_isValueChar (List.mem_takeWhile_imp hc)
  rw [← List.append_assoc] at htext
  have hrstrip := rstrip_posOf hskipped htext
  rw [← valueOf, hstrip] at hrstrip
  rw [consumeTillEnd, skipSpaces_before hsuffix hnul]
  simp [before, hloop, hrstrip]

end Text

end LineScanner

end Conf
end GameServer
