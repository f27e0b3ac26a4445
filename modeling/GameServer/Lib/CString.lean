import Mathlib.Data.List.DropRight
import Mathlib.Data.List.Infix
import Mathlib.Data.List.TakeWhile
import Mathlib.Data.Nat.Log
import Mathlib.Tactic.Common

/-!
# C strings

A line in memory is the text in front of its terminating NUL.  `charAt` is the
read through a pointer into it: the NUL itself can be read, nothing behind it.
A pointer is an index into the line, or equivalently the part of the text that
it has in front of it; `posOf` translates, and the lemmas about the pointer
loops are stated for the text in front.

`fgets` cuts a stream into lines of a bounded length.  `fgetsLines` is the
whole sequence of them, and behind a newline the cutting starts afresh.
-/

namespace GameServer
namespace Lib

/-- The bytes of a `std::string`, or of a C string in front of its NUL. -/
abbrev Text := List UInt8

/-- `isspace` of the C locale: blank, and the controls from `\t` to `\r`. -/
def isSpace (c : UInt8) : Bool :=
  c == 32 || (9 ≤ c && c ≤ 13)

/-- `tolower` of the C locale. -/
def toLower (c : UInt8) : UInt8 :=
  if 65 ≤ c ∧ c ≤ 90 then c + 32 else c

/-- Trimming behind a word that has no white space. -/
theorem rdropWhile_append_of_forall {word space : Text} (hspace : ∀ c ∈ space, isSpace c = true)
    (hword : ∀ c ∈ word, isSpace c = false) :
    (word ++ space).rdropWhile isSpace = word := by
  induction space using List.reverseRecOn with
  | nil =>
    rw [List.append_nil, List.rdropWhile_eq_self_iff]
    intro hne
    rw [hword _ (List.getLast_mem hne)]
    decide
  | append_singleton space c ih =>
    rw [← List.append_assoc, List.rdropWhile_concat_pos _ _ _ (hspace c (by simp))]
    exact ih fun d hd => hspace d (by simp [hd])

variable {c : UInt8} {line stream text : Text} {room : Nat}

/-- The text in front of the first `c`, and what follows that `c`. -/
theorem takeWhile_append_of_mem (h : c ∈ text) :
    text = text.takeWhile (· != c) ++ c :: (text.dropWhile (· != c)).tail := by
  induction text with
  | nil => cases h
  | cons d rest ih =>
    by_cases hd : d = c
    · subst hd
      rw [List.takeWhile_cons_of_neg (by simp), List.dropWhile_cons_of_neg (by simp)]
      rfl
    · have hrest := ih ((List.mem_cons.mp h).resolve_left (Ne.symm hd))
      rw [List.takeWhile_cons_of_pos (by simpa using hd),
        List.dropWhile_cons_of_pos (by simpa using hd), List.cons_append,
        ← hrest]

theorem not_mem_takeWhile (c : UInt8) (text : Text) : c ∉ text.takeWhile (· != c) := by
  intro h
  have hne := List.mem_takeWhile_imp h
  simp at hne

theorem takeWhile_of_split {word : Text} (hword : c ∉ word) (rest : Text) :
    (word ++ c :: rest).takeWhile (· != c) = word := by
  rw [List.takeWhile_append_of_pos]
  · simp
  · intro d hd
    simpa using fun heq : d = c => hword (heq ▸ hd)

/-- The C string at the front of an array: the text in front of its first
NUL. -/
def cString (array : Text) : Text :=
  array.takeWhile (· != 0)

theorem not_mem_cString (array : Text) : 0 ∉ cString array :=
  not_mem_takeWhile 0 array

theorem cString_eq_self (h : 0 ∉ text) : cString text = text := by
  rw [cString, List.takeWhile_eq_self_iff]
  intro c hc
  simpa using fun heq : c = 0 => h (heq ▸ hc)

theorem cString_append_zero (h : 0 ∉ text) (behind : Text) : cString (text ++ 0 :: behind) = text :=
  takeWhile_of_split h behind

theorem cString_append_of_mem (h : 0 ∈ text) (rest : Text) :
    cString (text ++ rest) = cString text := by
  have hsplit := takeWhile_append_of_mem h
  conv_lhs => rw [cString, hsplit]
  rw [List.append_assoc, List.cons_append, takeWhile_of_split (not_mem_takeWhile 0 _), cString]

/-- `strncpy` into an array of `size` bytes: filled up with NULs, and without
a terminating one if the text is as long as the array. -/
def strncpy (size : Nat) (source : Text) : Text :=
  let chars := (cString source).take size
  chars ++ List.replicate (size - chars.length) 0

/-- A text without NUL that fits the array is read back from it. -/
theorem cString_strncpy {size : Nat} (hnul : 0 ∉ text)
    (hsize : text.length ≤ size) : cString (strncpy size text) = text := by
  rw [strncpy, cString_eq_self hnul, List.take_of_length_le hsize]
  cases size - text.length with
  | zero => rw [List.replicate_zero, List.append_nil, cString_eq_self hnul]
  | succ n => exact cString_append_zero hnul _

/-- What `%d` prints for a number that is not negative. -/
def decimal (n : Nat) : Text :=
  if n < 10 then [48 + UInt8.ofNat n]
  else decimal (n / 10) ++ [48 + UInt8.ofNat (n % 10)]
termination_by n

theorem length_decimal (n : Nat) : (decimal n).length = Nat.log 10 n + 1 := by
  induction n using Nat.strongRecOn with
  | ind n ih =>
    rw [decimal]
    split_ifs with hsmall
    · rw [Nat.log_of_lt hsmall]
      rfl
    · have hlarge : 10 ≤ n := Nat.not_lt.mp hsmall
      rw [List.length_append, ih (n / 10) (by omega), Nat.log_of_one_lt_of_le (by decide) hlarge]
      rfl

theorem mem_decimal {n : Nat} (h : c ∈ decimal n) : 48 ≤ c.toNat ∧ c.toNat < 58 := by
  have hdigit : ∀ k < 10, 48 ≤ (48 + UInt8.ofNat k).toNat ∧ (48 + UInt8.ofNat k).toNat < 58 := by
    decide
  induction n using Nat.strongRecOn with
  | ind n ih =>
    rw [decimal] at h
    split_ifs at h with hsmall
    · rw [List.mem_singleton.mp h]
      exact hdigit n hsmall
    · rcases List.mem_append.mp h with hmem | hmem
      · exact ih (n / 10) (by omega) hmem
      · rw [List.mem_singleton.mp hmem]
        exact hdigit (n % 10) (Nat.mod_lt n (by decide))

/-! ## Pointers into a line -/

/-- `line[p]`, where the line is followed by its NUL. -/
def charAt (line : Text) (p : Nat) : Option UInt8 :=
  (line ++ [0])[p]?

theorem lt_of_charAt {p : Nat} (h : charAt line p = some c) : p < line.length + 1 := by
  have hlt := (List.getElem?_eq_some_iff.mp h).1
  simpa using hlt

/-- The NUL can be read. -/
theorem charAt_length (line : Text) : charAt line line.length = some 0 := by
  rw [charAt, List.getElem?_append_right (Nat.le_refl _), Nat.sub_self]
  rfl

/-- In a buffer a read up to the NUL is a read of the buffer; what the buffer
has behind the NUL cannot be read. -/
theorem charAt_eq_of_terminated (line behind : Text) (p : Nat) :
    charAt line p =
      if p ≤ line.length then (line ++ 0 :: behind)[p]? else none := by
  rcases Nat.lt_trichotomy p line.length with hlt | rfl | hgt
  · rw [if_pos hlt.le, charAt, List.getElem?_append_left hlt, List.getElem?_append_left hlt]
  · rw [if_pos (Nat.le_refl _), charAt_length,
      List.getElem?_append_right (Nat.le_refl _), Nat.sub_self]
    rfl
  · rw [if_neg (Nat.not_le.mpr hgt), charAt, List.getElem?_eq_none]
    rw [List.length_append, List.length_singleton]
    exact hgt

/-- `while (*p && test(*p)) p++;` -/
def advanceWhile (line : Text) (test : UInt8 → Bool) (p : Nat) : Option Nat :=
  match _ : charAt line p with
  | none => none
  | some c =>
    if c ≠ 0 ∧ test c then
      advanceWhile line test (p + 1)
    else
      some p
termination_by line.length + 1 - p
decreasing_by
  have := lt_of_charAt ‹_›
  omega

/-- `while (e > s && test(e[-1])) e--;` -/
def retreatWhile (line : Text) (test : UInt8 → Bool) (s : Nat) :
    Nat → Option Nat
  | 0 => some 0
  | e + 1 =>
    if s < e + 1 then
      (charAt line e).bind fun c =>
        if test c then retreatWhile line test s e else some (e + 1)
    else
      some (e + 1)

/-- `string(s, e)`. -/
def textBetween (line : Text) (s e : Nat) : Text :=
  (line.drop s).take (e - s)

/-- The pointer that has `text` in front of it. -/
def posOf (line text : Text) : Nat :=
  line.length - text.length

@[simp] theorem posOf_self (line : Text) : posOf line line = 0 :=
  Nat.sub_self _

theorem posOf_append (front text : Text) : posOf (front ++ text) text = front.length := by
  simp [posOf]

/-- One step further. -/
theorem posOf_tail (h : c :: text <:+ line) : posOf line (c :: text) + 1 = posOf line text := by
  have hlength := h.length_le
  rw [List.length_cons] at hlength
  rw [posOf, posOf, List.length_cons]
  omega

/-- What a pointer reads is the front of its text, or the NUL. -/
theorem charAt_posOf (h : text <:+ line) : charAt line (posOf line text) = some (text.headD 0) := by
  obtain ⟨front, rfl⟩ := h
  rw [posOf_append, charAt, List.append_assoc,
    List.getElem?_append_right (Nat.le_refl _), Nat.sub_self]
  cases text <;> rfl

/-- The loop stops in front of the first character that fails the test. -/
theorem advanceWhile_posOf (test : UInt8 → Bool) (h : text <:+ line) (hnul : 0 ∉ text) :
    advanceWhile line test (posOf line text) = some (posOf line (text.dropWhile test)) := by
  induction text with
  | nil =>
    unfold advanceWhile
    split
    · next hread => simp [charAt_posOf h] at hread
    · next c hread =>
      rw [charAt_posOf h, Option.some.injEq] at hread
      rw [← hread]
      simp
  | cons c rest ih =>
    have hrest : rest <:+ line := (List.suffix_cons c rest).trans h
    have hc : c ≠ 0 := fun heq => hnul (by simp [heq])
    unfold advanceWhile
    split
    · next hread => simp [charAt_posOf h] at hread
    · next d hread =>
      rw [charAt_posOf h, Option.some.injEq, List.headD_cons] at hread
      subst hread
      by_cases htest : test c
      · rw [if_pos ⟨hc, htest⟩, posOf_tail h,
          ih hrest (fun hmem => hnul (List.mem_cons_of_mem c hmem)),
          List.dropWhile_cons_of_pos htest]
      · rw [if_neg (fun hboth => htest hboth.2), List.dropWhile_cons_of_neg htest]

/-- The text between two pointers. -/
theorem textBetween_posOf {word rest : Text} (h : word ++ rest <:+ line) :
    textBetween line (posOf line (word ++ rest)) (posOf line rest) = word := by
  obtain ⟨front, rfl⟩ := h
  have hrest : posOf (front ++ (word ++ rest)) rest = front.length + word.length := by
    rw [← List.append_assoc, posOf_append, List.length_append]
  rw [textBetween, posOf_append, hrest, List.drop_left, Nat.add_sub_cancel_left, List.take_left]

/-- The backward loop stops behind the last character that fails the test. -/
theorem retreatWhile_posOf (test : UInt8 → Bool) (word : Text) {rest : Text}
    (h : word ++ rest <:+ line) :
    ∃ trimmed, word = word.rdropWhile test ++ trimmed ∧
      retreatWhile line test (posOf line (word ++ rest)) (posOf line rest) =
        some (posOf line (trimmed ++ rest)) := by
  induction word using List.reverseRecOn generalizing rest with
  | nil =>
    refine ⟨[], rfl, ?_⟩
    rw [List.nil_append]
    cases posOf line rest with
    | zero => rfl
    | succ e => rw [retreatWhile, if_neg (Nat.lt_irrefl _)]
  | append_singleton word c ih =>
    rw [List.append_assoc, List.singleton_append] at h
    have hc : c :: rest <:+ line := (List.suffix_append word _).trans h
    have hlt : posOf line (word ++ c :: rest) < posOf line (c :: rest) + 1 := by
      rw [posOf, posOf, List.length_append]
      omega
    rw [List.append_assoc, List.singleton_append, ← posOf_tail hc, retreatWhile,
      if_pos hlt, charAt_posOf hc, Option.bind_some, List.headD_cons]
    by_cases htest : test c
    · obtain ⟨trimmed, hword, hloop⟩ := ih h
      refine ⟨trimmed ++ [c], ?_, ?_⟩
      · rw [List.rdropWhile_concat_pos _ _ _ htest, ← List.append_assoc, ← hword]
      · rw [if_pos htest, hloop, List.append_assoc, List.singleton_append]
    · refine ⟨[], ?_, ?_⟩
      · rw [List.rdropWhile_concat_neg _ _ _ htest, List.append_nil]
      · rw [if_neg htest, List.nil_append, posOf_tail hc]

/-! ## Reading a stream line by line -/

/-- The bytes that `fgets` takes off a stream when there is room for `room`,
and what it leaves. -/
def fgetsSplit : Nat → Text → Text × Text
  | 0, stream => ([], stream)
  | _ + 1, [] => ([], [])
  | room + 1, c :: rest =>
    if c = 10 then
      ([c], rest)
    else
      let taken := fgetsSplit room rest
      (c :: taken.1, taken.2)

theorem fgetsSplit_append (room : Nat) (stream : Text) :
    (fgetsSplit room stream).1 ++ (fgetsSplit room stream).2 = stream := by
  induction room generalizing stream with
  | zero => rfl
  | succ room ih =>
    cases stream with
    | nil => rfl
    | cons c rest =>
      rw [fgetsSplit]
      split_ifs
      · rfl
      · exact congrArg (c :: ·) (ih rest)

/-- `fgets` with a buffer for `room + 2` bytes, the NUL included: what it
stores in front of the NUL, and what it leaves; `none` at the end of the
stream. -/
def fgets (room : Nat) : Text → Option (Text × Text)
  | [] => none
  | c :: rest => some (fgetsSplit (room + 1) (c :: rest))

/-- `fgets` takes at least one byte. -/
theorem length_fgets_lt {rest : Text} (h : fgets room stream = some (line, rest)) :
    rest.length < stream.length := by
  cases stream with
  | nil => cases h
  | cons c tail =>
    have happend := congrArg List.length (fgetsSplit_append room tail)
    rw [List.length_append] at happend
    rw [fgets, fgetsSplit] at h
    split_ifs at h
    · cases h
      exact Nat.lt_succ_self _
    · cases h
      simp only [List.length_cons]
      omega

/-- All the lines that `fgets` gives, one call after the other. -/
def fgetsLines (room : Nat) (stream : Text) : List Text :=
  match _ : fgets room stream with
  | none => []
  | some (line, rest) => line :: fgetsLines room rest
termination_by stream.length
decreasing_by exact length_fgets_lt ‹_›

theorem fgetsLines_of_none (h : fgets room stream = none) : fgetsLines room stream = [] := by
  unfold fgetsLines
  split
  · rfl
  · next hsome => simp [h] at hsome

@[simp] theorem fgetsLines_nil (room : Nat) : fgetsLines room [] = [] :=
  fgetsLines_of_none rfl

/-- The first line of several, and the rest. -/
theorem exists_fgets_of_fgetsLines {lines : List Text}
    (h : fgetsLines room stream = line :: lines) :
    ∃ rest, fgets room stream = some (line, rest) ∧ fgetsLines room rest = lines := by
  rw [fgetsLines] at h
  split at h
  · cases h
  · next rest hfgets =>
    cases h
    exact ⟨rest, hfgets, rfl⟩

theorem fgets_eq_none_of_fgetsLines (h : fgetsLines room stream = []) :
    fgets room stream = none := by
  rw [fgetsLines] at h
  split at h
  · assumption
  · cases h

theorem fgetsLines_of_some {rest : Text} (h : fgets room stream = some (line, rest)) :
    fgetsLines room stream = line :: fgetsLines room rest := by
  rw [fgetsLines]
  split
  · next hnone => simp [h] at hnone
  · next hsome =>
    rw [h, Option.some.injEq, Prod.mk.injEq] at hsome
    rw [hsome.1, hsome.2]

/-- What `fgets` takes from the front of a stream does not depend on what
follows a newline in it. -/
theorem fgetsSplit_append_newline (room : Nat) (front rest : Text) :
    fgetsSplit room (front ++ 10 :: rest) = ((fgetsSplit room (front ++ [10])).1,
        (fgetsSplit room (front ++ [10])).2 ++ rest) := by
  induction room generalizing front with
  | zero => simp [fgetsSplit]
  | succ room ih =>
    cases front with
    | nil => rfl
    | cons c front =>
      rw [List.cons_append, List.cons_append, fgetsSplit, fgetsSplit]
      split_ifs
      · simp
      · rw [ih front]

/-- What is left of a stream that ends in a newline ends in one, or is empty. -/
theorem fgetsSplit_newline_snd (room : Nat) (front : Text) :
    (fgetsSplit room (front ++ [10])).2 = [] ∨
      ∃ front', (fgetsSplit room (front ++ [10])).2 = front' ++ [10] := by
  induction room generalizing front with
  | zero => exact .inr ⟨front, rfl⟩
  | succ room ih =>
    cases front with
    | nil => exact .inl rfl
    | cons c front =>
      rw [List.cons_append, fgetsSplit]
      split_ifs
      · exact .inr ⟨front, rfl⟩
      · exact ih front

/-- Behind a newline the lines start afresh. -/
theorem fgetsLines_append (room : Nat) (front rest : Text) :
    fgetsLines room (front ++ 10 :: rest) =
      fgetsLines room (front ++ [10]) ++ fgetsLines room rest := by
  induction hlength : front.length using Nat.strong_induction_on generalizing front with
  | _ n ih =>
    have hfgets : ∀ tail : Text, fgets room (front ++ 10 :: tail) =
        some (fgetsSplit (room + 1) (front ++ 10 :: tail)) := by
      intro tail
      cases front <;> rfl
    have hone := hfgets []
    have hall := hfgets rest
    rw [fgetsSplit_append_newline] at hall
    rw [fgetsLines_of_some hone, fgetsLines_of_some hall, List.cons_append]
    congr 1
    have hshort := length_fgets_lt hone
    rcases fgetsSplit_newline_snd (room + 1) front with hnil | ⟨front', hfront'⟩
    · rw [hnil, List.nil_append, fgetsLines_nil, List.nil_append]
    · rw [hfront', List.length_append, List.length_append, Nat.add_lt_add_iff_right] at hshort
      rw [hfront', List.append_assoc, List.singleton_append]
      exact ih front'.length (hlength ▸ hshort) front' rfl

/-- The lines of a text, each with the newline that ends it. -/
def linesOf : Text → List Text
  | [] => []
  | c :: rest =>
    if c = 10 then
      [c] :: linesOf rest
    else
      match linesOf rest with
      | [] => [[c]]
      | line :: lines => (c :: line) :: lines

theorem linesOf_eq_nil_iff : linesOf text = [] ↔ text = [] := by
  cases text with
  | nil => simp [linesOf]
  | cons c rest =>
    rw [linesOf]
    split_ifs
    · simp
    · split <;> simp

/-- The lines consist of the characters of the text. -/
theorem mem_of_mem_linesOf (hline : line ∈ linesOf text) (hc : c ∈ line) : c ∈ text := by
  induction text generalizing line with
  | nil => cases hline
  | cons d rest ih =>
    rw [linesOf] at hline
    split_ifs at hline with hd
    · rcases List.mem_cons.mp hline with rfl | hrest
      · exact List.mem_cons.mpr (.inl (List.mem_singleton.mp hc))
      · exact List.mem_cons_of_mem d (ih hrest hc)
    · split at hline
      · rw [List.mem_singleton.mp hline] at hc
        exact List.mem_cons.mpr (.inl (List.mem_singleton.mp hc))
      · next first others hlines =>
        rcases List.mem_cons.mp hline with rfl | hothers
        · rcases List.mem_cons.mp hc with rfl | hfirst
          · exact List.mem_cons_self
          · exact List.mem_cons_of_mem d (ih (hlines ▸ List.mem_cons_self) hfirst)
        · exact List.mem_cons_of_mem d (ih (hlines ▸ List.mem_cons_of_mem first hothers) hc)

theorem fgetsSplit_nil (room : Nat) : fgetsSplit room [] = ([], []) := by
  cases room <;> rfl

/-- `fgets` takes the first line if it fits. -/
theorem fgetsSplit_of_linesOf {lines : List Text}
    (h : linesOf text = line :: lines) (hroom : line.length ≤ room) :
    (fgetsSplit room text).1 = line ∧ linesOf (fgetsSplit room text).2 = lines := by
  induction text generalizing room line with
  | nil => cases h
  | cons c rest ih =>
    rw [linesOf] at h
    cases room with
    | zero =>
      -- a line is not empty
      have hnil : line = [] := List.length_eq_zero_iff.mp (by omega)
      subst hnil
      split_ifs at h
      · cases h
      · split at h <;> cases h
    | succ room =>
      rw [fgetsSplit]
      split_ifs with hc
      · rw [if_pos hc] at h
        cases h
        exact ⟨rfl, rfl⟩
      · rw [if_neg hc] at h
        split at h
        · next hrest =>
          rw [linesOf_eq_nil_iff] at hrest
          cases h
          rw [hrest, fgetsSplit_nil]
          exact ⟨rfl, rfl⟩
        · next first others hrest =>
          cases h
          obtain ⟨hfirst, hothers⟩ := ih hrest (by simpa using hroom)
          exact ⟨congrArg (c :: ·) hfirst, hothers⟩

/-- On a text whose lines fit, `fgets` gives its lines. -/
theorem fgetsLines_eq_linesOf (hlines : ∀ line ∈ linesOf text, line.length ≤ room + 1) :
    fgetsLines room text = linesOf text := by
  induction hlength : text.length using Nat.strong_induction_on generalizing text with
  | _ n ih =>
    cases htext : linesOf text with
    | nil => rw [linesOf_eq_nil_iff.mp htext, fgetsLines_nil]
    | cons line lines =>
      rw [htext] at hlines
      obtain ⟨hline, hrest⟩ :=
        fgetsSplit_of_linesOf htext (hlines line List.mem_cons_self)
      have hfgets : fgets room text = some (line, (fgetsSplit (room + 1) text).2) := by
        cases text with
        | nil => cases htext
        | cons c rest => rw [fgets, ← hline]
      have hshort := length_fgets_lt hfgets
      rw [fgetsLines_of_some hfgets, ih _ (hlength ▸ hshort) ?_ rfl, hrest]
      rw [hrest]
      exact fun other hother => hlines other (List.mem_cons_of_mem line hother)

/-- A text without a newline is one line. -/
theorem linesOf_of_not_mem (hnewline : 10 ∉ line) (hne : line ≠ []) : linesOf line = [line] := by
  induction line with
  | nil => exact absurd rfl hne
  | cons c rest ih =>
    rw [List.mem_cons, not_or] at hnewline
    rw [linesOf, if_neg (Ne.symm hnewline.1)]
    by_cases hrest : rest = []
    · rw [hrest]
      rfl
    · rw [ih hnewline.2 hrest]

/-- So is a text whose only newline ends it. -/
theorem linesOf_concat (hnewline : 10 ∉ line) : linesOf (line ++ [10]) = [line ++ [10]] := by
  induction line with
  | nil => rfl
  | cons c rest ih =>
    rw [List.mem_cons, not_or] at hnewline
    rw [List.cons_append, linesOf, if_neg (Ne.symm hnewline.1), ih hnewline.2]

/-- A text without a newline that fills the buffer is taken alone. -/
theorem fgetsSplit_length (rest : Text) (hnewline : 10 ∉ line) :
    fgetsSplit line.length (line ++ rest) = (line, rest) := by
  induction line with
  | nil => rfl
  | cons c line ih =>
    rw [List.mem_cons, not_or] at hnewline
    rw [List.length_cons, List.cons_append, fgetsSplit, if_neg (Ne.symm hnewline.1), ih hnewline.2]

/-- A line that fits without its newline: either the newline is read with it,
or it is read alone in the next call. -/
theorem fgetsLines_concat (hnewline : 10 ∉ line) (hne : line ≠ [])
    (hroom : line.length ≤ room + 1) :
    fgetsLines room (line ++ [10]) = [line ++ [10]] ∨
      fgetsLines room (line ++ [10]) = [line, [10]] := by
  rcases Nat.lt_or_eq_of_le hroom with hlt | heq
  · left
    rw [← linesOf_concat hnewline]
    apply fgetsLines_eq_linesOf
    rw [linesOf_concat hnewline]
    simpa using Nat.le_of_lt_succ hlt
  · right
    have hfgets : fgets room (line ++ [10]) = some (line, [10]) := by
      rw [← fgetsSplit_length [10] hnewline, heq]
      cases line with
      | nil => exact absurd rfl hne
      | cons c rest => rfl
    rw [fgetsLines_of_some hfgets]
    exact congrArg (line :: ·) (fgetsLines_eq_linesOf (by simp [linesOf]))

/-- A last line without a newline. -/
theorem fgetsLines_of_not_mem (hnewline : 10 ∉ line) (hne : line ≠ [])
    (hroom : line.length ≤ room + 1) : fgetsLines room line = [line] := by
  rw [← linesOf_of_not_mem hnewline hne]
  apply fgetsLines_eq_linesOf
  rw [linesOf_of_not_mem hnewline hne]
  simpa using hroom

end Lib
end GameServer
