import GameServer.Common.GameConf

/-!
# Reading a value back

A file in which the line `[section]` is followed, in the same section, by the
line `key = value`, among lines that the parser accepts and that say nothing
about this key.  `readsBack_iff` says when `get` returns the value as it is
written there: when it contains no white space, because `consumeTillEnd` stops
behind the first one.  The names must be free of NUL, at which the C string of
a line ends.

A newline at the end of a line makes no difference to what the line is, so it
does not matter whether `fgets` has read it with the line or after it.
-/

namespace GameServer
namespace Conf

open Lib LineScanner

/-! ## The newline at the end of a line -/

theorem dropWhile_isSpace_newline (text : Text) :
    (text ++ [10]).dropWhile isSpace =
      if text.dropWhile isSpace = [] then []
      else text.dropWhile isSpace ++ [10] := by
  rw [List.dropWhile_append]
  cases text.dropWhile isSpace with
  | nil => rfl
  | cons c rest => simp

theorem rdropWhile_isSpace_newline (text : Text) :
    (text ++ [10]).rdropWhile isSpace = text.rdropWhile isSpace :=
  List.rdropWhile_concat_pos _ _ _ (by decide)

theorem takeWhile_concat_of_neg {test : UInt8 → Bool} {c : UInt8}
    (hc : test c = false) (text : Text) :
    (text ++ [c]).takeWhile test = text.takeWhile test := by
  induction text with
  | nil => simp [hc]
  | cons d rest ih => simp [List.takeWhile_cons, ih]

theorem valueOf_newline (text : Text) : valueOf (text ++ [10]) = valueOf text := by
  rw [valueOf, valueOf, dropWhile_isSpace_newline]
  split_ifs with h
  · rw [h]
  · exact takeWhile_concat_of_neg (by decide) _

theorem behind_of_split {c : UInt8} {word : Text} (hword : c ∉ word)
    (rest : Text) : behind c (word ++ c :: rest) = rest := by
  rw [behind, List.dropWhile_append_of_pos]
  · simp
  · intro d hd
    simpa using fun heq : d = c => hword (heq ▸ hd)

/-- The field in front of a character that is in the line. -/
theorem fieldTill_newline {c : UInt8} (hc : isSpace c = false) {text : Text}
    (hmem : c ∈ text) : fieldTill c (text ++ [10]) = fieldTill c text := by
  have hskipped := (mem_dropWhile_isSpace hc).mpr hmem
  have hsplit := takeWhile_append_of_mem hskipped
  rw [fieldTill, fieldTill, dropWhile_isSpace_newline, if_neg (List.ne_nil_of_mem hskipped)]
  congr 1
  conv_lhs => rw [hsplit]
  rw [List.append_assoc, List.cons_append, takeWhile_of_split (not_mem_takeWhile c _)]

/-- The text behind a character that is in the line. -/
theorem behind_newline {c : UInt8} {text : Text} (hmem : c ∈ text) :
    behind c (text ++ [10]) = behind c text ++ [10] := by
  have hsplit := takeWhile_append_of_mem hmem
  conv_lhs => rw [hsplit]
  rw [List.append_assoc, List.cons_append, behind_of_split (not_mem_takeWhile c _)]
  rfl

/-- The newline makes no difference to what a line is. -/
theorem lineOf_newline (ln : Text) : lineOf (ln ++ [10]) = lineOf ln := by
  rw [lineOf, lineOf, dropWhile_isSpace_newline]
  cases hskip : ln.dropWhile isSpace with
  | nil => rfl
  | cons c rest =>
    have hhead : (ln ++ [10]).headD 0 = ln.headD 0 := by
      cases ln with
      | nil => cases hskip
      | cons d tail => rfl
    have hmem : ∀ c : UInt8, c ≠ 10 → ∀ text : Text, (c ∈ text ++ [10] ↔ c ∈ text) := by
      intro c hc text
      simp [hc]
    rw [if_neg (List.cons_ne_nil c rest), List.cons_append]
    dsimp only
    rw [hhead, ← List.cons_append, rdropWhile_isSpace_newline,
      if_congr (hmem 93 (by decide) rest) rfl rfl,
      if_congr (hmem 61 (by decide) ln) rfl rfl,
      if_congr (hmem 58 (by decide) ln) rfl rfl]
    have hvalue : ∀ c, c ∈ ln → valueOf (behind c (ln ++ [10])) = valueOf (behind c ln) := by
      intro c hc
      rw [behind_newline hc, valueOf_newline]
    congr 1
    congr 1
    · split_ifs with hclosing
      · rw [fieldTill_newline rfl hclosing]
      · rfl
    · congr 1
      split_ifs with hequals hcolon
      · rw [fieldTill_newline rfl hequals, hvalue 61 hequals]
      · rw [fieldTill_newline rfl hcolon, hvalue 58 hcolon]
      · rfl

theorem lineOf_cString_newline (ln : Text) :
    lineOf (cString (ln ++ [10])) = lineOf (cString ln) := by
  by_cases h : 0 ∈ ln
  · rw [cString_append_of_mem h]
  · rw [cString_eq_self h, cString_eq_self (by simpa using h), lineOf_newline]

/-- What `parse` may see of a line: the line with its newline, the line and
then its newline, or a last line without one. -/
def IsRead (ln : Text) (group : List Text) : Prop :=
  group = [cString (ln ++ [10])] ∨ group = [cString ln, [10]] ∨
    group = [cString ln]

section Group

variable {ln : Text} {group : List Text} (h : IsRead ln group)
  (context : Context)

include h

theorem allAccepted_group : AllAccepted context group ↔ (lineOf (cString ln)).Accepted context := by
  have hblank : lineOf [10] = .blank := rfl
  rcases h with rfl | rfl | rfl
  · simp [AllAccepted, lineOf_cString_newline]
  · simp [AllAccepted, hblank, Line.Accepted]
  · simp [AllAccepted]

theorem contextAfter_group : contextAfter context group = context.next (lineOf (cString ln)) := by
  rcases h with rfl | rfl | rfl
  · simp [contextAfter, lineOf_cString_newline]
  · rfl
  · rfl

theorem stored_group : stored context group = ((lineOf (cString ln)).stores context).toList := by
  have hblank : lineOf [10] = .blank := rfl
  rcases h with rfl | rfl | rfl
  · simp [stored, lineOf_cString_newline]
  · simp [stored, hblank, Line.stores]
  · simp [stored]

end Group

theorem allAccepted_append (context : Context) (first second : List Text) :
    AllAccepted context (first ++ second) ↔ AllAccepted context first ∧
        AllAccepted (contextAfter context first) second := by
  induction first generalizing context with
  | nil => exact (and_iff_right trivial).symm
  | cons ln rest ih =>
    exact Iff.trans (and_congr_right fun _ => ih _) and_assoc.symm

theorem stored_append (context : Context) (first second : List Text) :
    stored context (first ++ second) =
      stored context first ++ stored (contextAfter context first) second := by
  induction first generalizing context with
  | nil => rfl
  | cons ln rest ih =>
    rw [List.cons_append, stored, stored, ih, List.append_assoc]
    rfl

/-! ## Cutting the file into lines -/

/-- A text after which a new line begins. -/
def EndsLine (text : Text) : Prop :=
  text = [] ∨ ∃ front, text = front ++ [10]

theorem linesRead_append {text : Text} (h : EndsLine text) (rest : Text) :
    linesRead (text ++ rest) = linesRead text ++ linesRead rest := by
  rcases h with rfl | ⟨front, rfl⟩
  · simp [linesRead]
  · rw [linesRead, List.append_assoc, List.singleton_append, fgetsLines_append, List.map_append]
    rfl

section Cut

variable {ln : Text} (hnewline : 10 ∉ ln) (hne : ln ≠ [])
  (hfit : ln.length < maxLine)

include hnewline hne hfit

theorem exists_group_newline (rest : Text) :
    ∃ group, IsRead ln group ∧
      linesRead (ln ++ 10 :: rest) = group ++ linesRead rest := by
  have hcut := linesRead_append (.inr ⟨ln, rfl⟩ : EndsLine (ln ++ [10])) rest
  rw [List.append_assoc, List.singleton_append] at hcut
  refine ⟨linesRead (ln ++ [10]), ?_, hcut⟩
  have hroom : ln.length ≤ maxLine - 2 + 1 := Nat.le_of_lt_succ hfit
  rcases fgetsLines_concat hnewline hne hroom with hone | htwo
  · exact .inl (by rw [linesRead, hone]; rfl)
  · exact .inr (.inl (by rw [linesRead, htwo]; rfl))

theorem exists_group_last : ∃ group, IsRead ln group ∧ linesRead ln = group := by
  have hroom : ln.length ≤ maxLine - 2 + 1 := Nat.le_of_lt_succ hfit
  refine ⟨linesRead ln, .inr (.inr ?_), rfl⟩
  rw [linesRead, fgetsLines_of_not_mem hnewline hne hroom]
  rfl

end Cut

/-! ## The file -/

/-- A text without white space at its ends. -/
def Trimmed (text : Text) : Prop :=
  text.dropWhile isSpace = text ∧ text.rdropWhile isSpace = text

/-- The line `[section]`. -/
def headerLine (sect : Text) : Text := 91 :: (sect ++ [93])

/-- The line `key = value`. -/
def entryLine (key value : Text) : Text := key ++ 32 :: 61 :: 32 :: value

/-- The names that a list of lines stores something under. -/
def namesStored (context : Context) (lines : List Text) : List Text :=
  (stored context lines).map Prod.fst

/-- A file that says `key = value` in a section, among other lines: above the
header, between the header and the key line, and below.  The names and the
value are of the form that can be written on such lines.  The other lines are
accepted where they stand, those between do not leave the section, and none of
them stores anything under the same name. -/
structure WrittenFile where
  sect : Text
  key : Text
  value : Text
  above : Text
  between : Text
  below : Text
  sect_closing : 93 ∉ sect
  sect_newline : 10 ∉ sect
  sect_trimmed : Trimmed sect
  key_ne : key ≠ []
  key_trimmed : Trimmed key
  key_head : key.headD 0 ≠ 91 ∧ key.headD 0 ≠ 59 ∧ key.headD 0 ≠ 35
  key_equals : 61 ∉ key
  key_newline : 10 ∉ key
  value_ne : value ≠ []
  value_trimmed : Trimmed value
  value_newline : 10 ∉ value
  value_nul : 0 ∉ value
  value_comment : 59 ∉ value ∧ 35 ∉ value
  header_fits : (headerLine sect).length < maxLine
  entry_fits : (entryLine key value).length < maxLine
  above_endsLine : EndsLine above
  above_accepted : AllAccepted .start (linesRead above)
  above_other : makeKey sect key ∉ namesStored .start (linesRead above)
  between_endsLine : EndsLine between
  between_accepted : AllAccepted ⟨sect, []⟩ (linesRead between)
  between_other : makeKey sect key ∉ namesStored ⟨sect, []⟩ (linesRead between)
  between_sect : (contextAfter ⟨sect, []⟩ (linesRead between)).sect = sect
  below_newline : below = [] ∨ ∃ rest, below = 10 :: rest
  below_accepted : AllAccepted ⟨sect, key⟩ (linesRead below.tail)
  below_other : makeKey sect key ∉ namesStored ⟨sect, key⟩ (linesRead below.tail)

theorem Trimmed.isSpace_head {c : UInt8} {rest : Text}
    (h : Trimmed (c :: rest)) : isSpace c = false := by
  by_contra hspace
  rw [Bool.not_eq_false] at hspace
  have hlength := congrArg List.length h.1
  rw [List.dropWhile_cons_of_pos hspace, List.length_cons] at hlength
  have hle := (List.dropWhile_suffix (l := rest) isSpace).length_le
  omega

/-- Nothing is skipped in front of trimmed text. -/
theorem Trimmed.dropWhile_append {text : Text} (h : Trimmed text) (hne : text ≠ []) (rest : Text) :
    (text ++ rest).dropWhile isSpace = text ++ rest := by
  cases text with
  | nil => exact absurd rfl hne
  | cons c tail =>
    rw [List.cons_append, List.dropWhile_cons_of_neg (by simp [h.isSpace_head])]

theorem length_fieldTill_le (c : UInt8) (text : Text) :
    (fieldTill c text).length ≤ text.length := by
  refine (List.rdropWhile_prefix _ _).length_le.trans ?_
  refine (List.takeWhile_prefix _).length_le.trans ?_
  exact (List.dropWhile_suffix _).length_le

namespace WrittenFile

variable (file : WrittenFile)

/-- The bytes of the file. -/
def content : Text :=
  file.above ++ (headerLine file.sect ++ 10 ::
    (file.between ++ (entryLine file.key file.value ++ file.below)))

/-- The value reads back as written, whatever the default. -/
def ReadsBack : Prop :=
  ∃ conf, GameConf.construct.parse (some file.content) = some (0, conf) ∧
    ∀ default_value,
      conf.get file.sect file.key default_value = some file.value

theorem not_mem_headerLine : 10 ∉ headerLine file.sect := by
  simp [headerLine, file.sect_newline]

theorem not_mem_entryLine : 10 ∉ entryLine file.key file.value := by
  simp [entryLine, file.key_newline, file.value_newline]

/-- What `parse` sees of the file. -/
theorem exists_groups :
    ∃ header entry, IsRead (headerLine file.sect) header ∧
      IsRead (entryLine file.key file.value) entry ∧
      linesRead file.content = linesRead file.above ++ (header ++ (linesRead file.between ++
          (entry ++ linesRead file.below.tail))) := by
  have hentry : ∃ entry, IsRead (entryLine file.key file.value) entry ∧
      linesRead (entryLine file.key file.value ++ file.below) =
        entry ++ linesRead file.below.tail := by
    have hne : entryLine file.key file.value ≠ [] := by simp [entryLine]
    rcases file.below_newline with hbelow | ⟨rest, hbelow⟩
    · obtain ⟨entry, hread, hlines⟩ := exists_group_last file.not_mem_entryLine hne file.entry_fits
      refine ⟨entry, hread, ?_⟩
      rw [hbelow, List.append_nil, hlines]
      simp [linesRead]
    · rw [hbelow]
      exact exists_group_newline file.not_mem_entryLine hne file.entry_fits rest
  obtain ⟨entry, hentryRead, hentryLines⟩ := hentry
  obtain ⟨header, hheaderRead, hheaderLines⟩ := exists_group_newline
    file.not_mem_headerLine (List.cons_ne_nil _ _) file.header_fits
    (file.between ++ (entryLine file.key file.value ++ file.below))
  refine ⟨header, entry, hheaderRead, hentryRead, ?_⟩
  rw [content, linesRead_append file.above_endsLine, hheaderLines,
    linesRead_append file.between_endsLine, hentryLines]

/-! ### The two lines -/

/-- The header line is one, unless a NUL cuts it before its bracket. -/
theorem lineOf_header (hnul : 0 ∉ file.sect) :
    lineOf (cString (headerLine file.sect)) = .header file.sect := by
  have hline : 0 ∉ headerLine file.sect := by simp [headerLine, hnul]
  have hfield : fieldTill 93 (file.sect ++ [93]) = file.sect := by
    have hskip : (file.sect ++ [93]).dropWhile isSpace = file.sect ++ [93] := by
      by_cases hsect : file.sect = []
      · rw [hsect]
        rfl
      · exact file.sect_trimmed.dropWhile_append hsect [93]
    rw [fieldTill, hskip, takeWhile_of_split file.sect_closing, file.sect_trimmed.2]
  rw [cString_eq_self hline, lineOf, headerLine, List.dropWhile_cons_of_neg (by decide)]
  simp [hfield]

theorem lineOf_header_of_nul (hnul : 0 ∈ file.sect) :
    lineOf (cString (headerLine file.sect)) = .malformed := by
  have hcut : cString (headerLine file.sect) = 91 :: cString file.sect := by
    rw [headerLine, ← cString_append_of_mem hnul [93]]
    rfl
  have hclosing : 93 ∉ cString file.sect :=
    fun h => file.sect_closing ((List.takeWhile_prefix _).mem h)
  rw [hcut, lineOf, List.dropWhile_cons_of_neg (by decide)]
  simp [hclosing]

/-- The first character of the key makes its line a key line. -/
theorem exists_key_cons :
    ∃ c rest, file.key = c :: rest ∧ isSpace c = false ∧ c ≠ 91 ∧ c ≠ 59 ∧
      c ≠ 35 := by
  have hhead := file.key_head
  have htrimmed := file.key_trimmed
  cases hkey : file.key with
  | nil => exact absurd hkey file.key_ne
  | cons c rest =>
    rw [hkey] at hhead htrimmed
    exact ⟨c, rest, rfl, htrimmed.isSpace_head, hhead⟩

/-- What a line is that starts like the key. -/
theorem lineOf_cons_key {c : UInt8} {rest : Text} (hspace : isSpace c = false)
    (hc : c ≠ 91 ∧ c ≠ 59 ∧ c ≠ 35) :
    lineOf (c :: rest) =
      if 61 ∈ c :: rest then
        .entry (fieldTill 61 (c :: rest)) (valueOf (behind 61 (c :: rest)))
      else if 58 ∈ c :: rest then
        .entry (fieldTill 58 (c :: rest)) (valueOf (behind 58 (c :: rest)))
      else
        .malformed := by
  rw [lineOf, List.dropWhile_cons_of_neg (by simp [hspace])]
  simp only [hc, or_self, if_false, List.headD_cons, hspace]
  rfl

/-- The value that the entry line gives. -/
theorem lineOf_entry (hnul : 0 ∉ file.key) :
    lineOf (cString (entryLine file.key file.value)) =
      .entry file.key (file.value.takeWhile isValueChar) := by
  have hline : 0 ∉ entryLine file.key file.value := by
    simp [entryLine, hnul, file.value_nul]
  have hsplit : entryLine file.key file.value = (file.key ++ [32]) ++ 61 :: 32 :: file.value := by
    simp [entryLine]
  have hequals : 61 ∉ file.key ++ [32] := by
    simp [file.key_equals]
  have hfield : fieldTill 61 (entryLine file.key file.value) = file.key := by
    have hskip := file.key_trimmed.dropWhile_append file.key_ne (32 :: 61 :: 32 :: file.value)
    rw [fieldTill, entryLine, hskip, ← entryLine, hsplit, takeWhile_of_split hequals,
      List.rdropWhile_concat_pos _ _ _ (by decide), file.key_trimmed.2]
  have hvalue : valueOf (behind 61 (entryLine file.key file.value)) =
      file.value.takeWhile isValueChar := by
    rw [hsplit, behind_of_split hequals, valueOf,
      List.dropWhile_cons_of_pos (by decide), file.value_trimmed.1]
  obtain ⟨c, rest, hkey, hspace, hc⟩ := file.exists_key_cons
  have hcons : entryLine file.key file.value = c :: (rest ++ 32 :: 61 :: 32 :: file.value) := by
    rw [entryLine, hkey, List.cons_append]
  have hmem : 61 ∈ entryLine file.key file.value := by simp [entryLine]
  rw [cString_eq_self hline, hcons, lineOf_cons_key hspace hc, ← hcons, if_pos hmem, hfield, hvalue]

/-- A NUL in the key leaves a line that says nothing about this key. -/
theorem lineOf_entry_of_nul (hnul : 0 ∈ file.key) :
    lineOf (cString (entryLine file.key file.value)) = .blank ∨
      lineOf (cString (entryLine file.key file.value)) = .malformed ∨
      ∃ key value, lineOf (cString (entryLine file.key file.value)) = .entry key value ∧
          key.length < file.key.length := by
  rw [entryLine, cString_append_of_mem hnul]
  have hlength : (cString file.key).length < file.key.length := by
    have hsplit := congrArg List.length (takeWhile_append_of_mem hnul)
    rw [List.length_append, List.length_cons] at hsplit
    rw [cString]
    omega
  obtain ⟨c, rest, hkey, hspace, hc⟩ := file.exists_key_cons
  by_cases hzero : c = 0
  · left
    rw [hkey, hzero]
    rfl
  · right
    have hcut : cString file.key = c :: cString rest := by
      rw [hkey, cString, List.takeWhile_cons_of_pos (by simpa using hzero)]
      rfl
    have hequals : 61 ∉ c :: cString rest := by
      rw [← hcut]
      exact fun h => file.key_equals ((List.takeWhile_prefix _).mem h)
    rw [hcut, lineOf_cons_key hspace hc, if_neg hequals]
    split_ifs
    · refine .inr ⟨_, _, rfl, ?_⟩
      rw [hcut] at hlength
      exact Nat.lt_of_le_of_lt (length_fieldTill_le _ _) hlength
    · exact .inl rfl

/-! ### The other lines -/

/-- Lines that store nothing under the name of the latest key do not continue
it, and then it does not matter which key that is. -/
theorem stored_of_other {sect key : Text} {lines : List Text}
    (h : makeKey sect key ∉ namesStored ⟨sect, key⟩ lines) (other : Text) :
    stored ⟨sect, other⟩ lines = stored ⟨sect, key⟩ lines := by
  induction lines with
  | nil => rfl
  | cons ln rest ih =>
    rw [namesStored, stored, List.map_append, List.mem_append, not_or] at h
    rw [stored, stored]
    cases hline : lineOf ln with
    | continuation text =>
      rw [hline] at h
      exact absurd (by simp [Line.stores]) h.1
    | header sect' => rfl
    | entry key' value => rfl
    | blank =>
      rw [hline] at h
      exact ih h.2
    | malformed =>
      rw [hline] at h
      exact ih h.2

theorem valuesNamed_of_not_mem {name : Text} {entries : List (Text × Text)}
    (h : name ∉ entries.map Prod.fst) : valuesNamed name entries = [] := by
  rw [valuesNamed, List.map_eq_nil_iff, List.filter_eq_nil_iff]
  intro entry hentry
  simpa using fun heq : entry.1 = name => h (heq ▸ List.mem_map_of_mem hentry)

/-- Where the entry line stands. -/
def place : Context :=
  contextAfter ⟨file.sect, []⟩ (linesRead file.between)

theorem place_sect : file.place.sect = file.sect :=
  file.between_sect

/-- What the file stores under the name is what the entry line stores. -/
theorem valuesNamed_content (hsect : 0 ∉ file.sect) (hnext : (file.place.next (lineOf (cString
      (entryLine file.key file.value)))).sect = file.sect) :
    valuesNamed (makeKey file.sect file.key) (stored .start (linesRead file.content)) =
      valuesNamed (makeKey file.sect file.key)
        ((lineOf (cString (entryLine file.key file.value))).stores file.place).toList := by
  obtain ⟨header, entry, hheader, hentry, hlines⟩ := file.exists_groups
  have hbelow : valuesNamed (makeKey file.sect file.key) (stored (file.place.next (lineOf (cString
        (entryLine file.key file.value)))) (linesRead file.below.tail)) = [] := by
    generalize hcontext : file.place.next (lineOf (cString
      (entryLine file.key file.value))) = context at hnext ⊢
    obtain ⟨sect, key⟩ := context
    rw [show sect = file.sect from hnext, stored_of_other file.below_other]
    exact valuesNamed_of_not_mem file.below_other
  have hplace : contextAfter ((contextAfter .start (linesRead file.above)).next
      (.header file.sect)) (linesRead file.between) = file.place := rfl
  have hbetween : valuesNamed (makeKey file.sect file.key)
      (stored ((contextAfter .start (linesRead file.above)).next
        (.header file.sect)) (linesRead file.between)) = [] :=
    valuesNamed_of_not_mem file.between_other
  rw [hlines, stored_append, stored_append, stored_append, stored_append,
    contextAfter_group hheader, stored_group hheader, file.lineOf_header hsect,
    hplace, contextAfter_group hentry, stored_group hentry]
  simp only [valuesNamed_append, valuesNamed_of_not_mem file.above_other,
    hbetween, hbelow, List.nil_append, List.append_nil]
  rfl

/-- With names free of NUL every line of the file is accepted. -/
theorem allAccepted_content (hsect : 0 ∉ file.sect) (hkey : 0 ∉ file.key) :
    AllAccepted .start (linesRead file.content) := by
  obtain ⟨header, entry, hheader, hentry, hlines⟩ := file.exists_groups
  have hplace : contextAfter ((contextAfter .start (linesRead file.above)).next
      (.header file.sect)) (linesRead file.between) = file.place := rfl
  have hbelow : file.place.next (.entry file.key (file.value.takeWhile isValueChar)) =
        ⟨file.sect, file.key⟩ := by
    rw [Context.next, file.place_sect]
  rw [hlines, allAccepted_append, allAccepted_append, allAccepted_append,
    allAccepted_append, allAccepted_group hheader, contextAfter_group hheader,
    file.lineOf_header hsect, hplace, allAccepted_group hentry,
    contextAfter_group hentry, file.lineOf_entry hkey, hbelow]
  exact ⟨file.above_accepted, trivial, file.between_accepted, trivial, file.below_accepted⟩

/-- A NUL in the section is an error in the header line. -/
theorem not_allAccepted_content (hsect : 0 ∈ file.sect) :
    ¬ AllAccepted .start (linesRead file.content) := by
  obtain ⟨header, entry, hheader, -, hlines⟩ := file.exists_groups
  rw [hlines, allAccepted_append, allAccepted_append,
    allAccepted_group hheader, file.lineOf_header_of_nul hsect]
  exact fun h => h.2.1

/-- With a NUL in the key nothing is stored under its name. -/
theorem valuesNamed_content_of_nul (hsect : 0 ∉ file.sect) (hkey : 0 ∈ file.key) :
    valuesNamed (makeKey file.sect file.key) (stored .start (linesRead file.content)) = [] := by
  rcases file.lineOf_entry_of_nul hkey with
    hline | hline | ⟨key, value, hline, hlength⟩
  · rw [file.valuesNamed_content hsect (by rw [hline]; exact file.place_sect), hline]
    rfl
  · rw [file.valuesNamed_content hsect (by rw [hline]; exact file.place_sect), hline]
    rfl
  · rw [file.valuesNamed_content hsect (by rw [hline]; exact file.place_sect), hline]
    refine valuesNamed_of_not_mem ?_
    rw [Line.stores, file.place_sect]
    intro hmem
    have hname := congrArg List.length (List.mem_singleton.mp hmem)
    simp only [makeKey, List.length_map, List.length_append] at hname
    omega

/-- The values that the file stores under the name. -/
theorem valuesNamed_content_of_not_nul (hsect : 0 ∉ file.sect) (hkey : 0 ∉ file.key) :
    valuesNamed (makeKey file.sect file.key) (stored .start (linesRead file.content)) =
      [file.value.takeWhile isValueChar] := by
  have hline := file.lineOf_entry hkey
  rw [file.valuesNamed_content hsect (by rw [hline]; exact file.place_sect),
    hline, Line.stores, file.place_sect]
  simp [valuesNamed]

/-- The part of the value that is read is all of it if it has no white space. -/
theorem takeWhile_value_eq_iff :
    file.value.takeWhile isValueChar = file.value ↔
      ∀ c ∈ file.value, isSpace c = false := by
  rw [List.takeWhile_eq_self_iff]
  refine forall₂_congr fun c hc => ⟨isSpace_of_isValueChar, fun hspace => ?_⟩
  have hsemicolon : c ≠ 59 := fun heq => file.value_comment.1 (heq ▸ hc)
  have hhash : c ≠ 35 := fun heq => file.value_comment.2 (heq ▸ hc)
  simp [isValueChar, hsemicolon, hhash, hspace]

/-! ### Reading back -/

/-- What `get` returns after a successful `parse`. -/
theorem get_of_parse {file : Text} {conf : GameConf}
    (h : GameConf.construct.parse (some file) = some (0, conf)) :
    AllAccepted .start (linesRead file) ∧
      ∀ sect name default_value, conf.get sect name default_value =
        some ((valuesNamed (makeKey sect name)
          (stored .start (linesRead file))).getLast?.getD default_value) := by
  rcases allAccepted_or_first .start (linesRead file) with
    hall | ⟨front, ln, back, hsplit, hfront, hbad⟩
  · obtain ⟨conf', hparse, hvalues⟩ := exists_parse_of_allAccepted hall
    rw [hparse, Option.some.injEq, Prod.mk.injEq] at h
    refine ⟨hall, fun sect name default_value => ?_⟩
    rw [GameConf.get, ← h.2, hvalues]
    cases valuesNamed (makeKey sect name) (stored .start (linesRead file)) with
    | nil => rfl
    | cons first rest => simp [List.getLast?_cons]
  · obtain ⟨after, hparse⟩ :=
      parse_of_rejected hsplit GameConf.construct hfront hbad
    rw [hparse, Option.some.injEq, Prod.mk.injEq] at h
    omega

/-- With names free of NUL, `get` returns the value up to its first white
space. -/
theorem exists_get_content (hsect : 0 ∉ file.sect) (hkey : 0 ∉ file.key) :
    ∃ conf, GameConf.construct.parse (some file.content) = some (0, conf) ∧
      ∀ default_value, conf.get file.sect file.key default_value =
        some (file.value.takeWhile isValueChar) := by
  obtain ⟨conf, hparse, -⟩ :=
    exists_parse_of_allAccepted (file.allAccepted_content hsect hkey)
  refine ⟨conf, hparse, fun default_value => ?_⟩
  rw [(get_of_parse hparse).2, file.valuesNamed_content_of_not_nul hsect hkey]
  rfl

/-- A value reads back exactly if it contains no white space, and the names
that it is stored under no NUL. -/
theorem readsBack_iff :
    file.ReadsBack ↔
      (∀ c ∈ file.value, isSpace c = false) ∧ 0 ∉ file.sect ∧ 0 ∉ file.key := by
  rw [← file.takeWhile_value_eq_iff]
  constructor
  · rintro ⟨conf, hparse, hget⟩
    obtain ⟨haccepted, hvalues⟩ := get_of_parse hparse
    have hsect : 0 ∉ file.sect :=
      fun hmem => file.not_allAccepted_content hmem haccepted
    have hread := hvalues file.sect file.key []
    rw [hget] at hread
    have hkey : 0 ∉ file.key := by
      intro hmem
      rw [file.valuesNamed_content_of_nul hsect hmem] at hread
      exact file.value_ne (Option.some.inj hread)
    rw [file.valuesNamed_content_of_not_nul hsect hkey] at hread
    exact ⟨(Option.some.inj hread).symm, hsect, hkey⟩
  · rintro ⟨hvalue, hsect, hkey⟩
    obtain ⟨conf, hparse, hget⟩ := file.exists_get_content hsect hkey
    rw [hvalue] at hget
    exact ⟨conf, hparse, hget⟩

/-- The file `[s]` with the line `k = value` and no others. -/
theorem exists_oneValue (value : Text) (hne : value ≠ [])
    (htrimmed : Trimmed value) (hnewline : 10 ∉ value) (hnul : 0 ∉ value)
    (hcomment : 59 ∉ value ∧ 35 ∉ value)
    (hfits : (entryLine [107] value).length < maxLine) :
    ∃ file : WrittenFile, file.content = headerLine [115] ++ 10 :: entryLine [107] value ∧
      file.sect = [115] ∧ file.key = [107] ∧ file.value = value := by
  have hlines : linesRead [] = [] := by simp [linesRead]
  let file : WrittenFile := {
    sect := [115], key := [107], value := value
    above := [], between := [], below := []
    sect_closing := by decide, sect_newline := by decide
    sect_trimmed := ⟨by decide, by decide⟩
    key_ne := by decide, key_trimmed := ⟨by decide, by decide⟩
    key_head := by decide, key_equals := by decide, key_newline := by decide
    value_ne := hne, value_trimmed := htrimmed, value_newline := hnewline
    value_nul := hnul, value_comment := hcomment
    header_fits := by decide, entry_fits := hfits
    above_endsLine := .inl rfl
    above_accepted := hlines.symm ▸ trivial
    above_other := hlines.symm ▸ List.not_mem_nil
    between_endsLine := .inl rfl
    between_accepted := hlines.symm ▸ trivial
    between_other := hlines.symm ▸ List.not_mem_nil
    between_sect := by rw [hlines]; rfl
    below_newline := .inl rfl
    below_accepted := hlines.symm ▸ trivial
    below_other := hlines.symm ▸ List.not_mem_nil }
  refine ⟨file, ?_, rfl, rfl, rfl⟩
  show _ = headerLine [115] ++ 10 :: entryLine [107] value
  rw [← List.append_nil (entryLine [107] value)]
  rfl

/-- The file `[s]` with the line `k = ab`. -/
theorem readsBack_iff_word :
    ∃ file : WrittenFile,
      file.content = [91, 115, 93, 10, 107, 32, 61, 32, 97, 98] ∧
      (file.sect = [115] ∧ file.key = [107] ∧ file.value = [97, 98]) ∧
      file.ReadsBack := by
  obtain ⟨file, hcontent, hsect, hkey, hvalue⟩ := exists_oneValue [97, 98]
    (by decide) ⟨by decide, by decide⟩ (by decide) (by decide) (by decide)
    (by decide)
  refine ⟨file, hcontent, ⟨hsect, hkey, hvalue⟩, file.readsBack_iff.mpr ?_⟩
  rw [hsect, hkey, hvalue]
  exact ⟨by simp [isSpace], by decide, by decide⟩

/-- The file `[s]` with the line `k = a b`, where `get` returns `a`. -/
theorem spaced_value_not_readsBack :
    ∃ file : WrittenFile,
      file.content = [91, 115, 93, 10, 107, 32, 61, 32, 97, 32, 98] ∧
      (file.sect = [115] ∧ file.key = [107] ∧ file.value = [97, 32, 98]) ∧
      (∃ conf, GameConf.construct.parse (some file.content) = some (0, conf) ∧
        conf.get [115] [107] [] = some [97]) ∧
      ¬ file.ReadsBack := by
  obtain ⟨file, hcontent, hsect, hkey, hvalue⟩ := exists_oneValue [97, 32, 98]
    (by decide) ⟨by decide, by decide⟩ (by decide) (by decide) (by decide)
    (by decide)
  have hshort : ([97] : Text) ≠ [97, 32, 98] := by decide
  obtain ⟨conf, hparse, hget⟩ := file.exists_get_content (hsect ▸ by decide) (hkey ▸ by decide)
  have hread := hget []
  rw [hsect, hkey, hvalue] at hread
  refine ⟨file, hcontent, ⟨hsect, hkey, hvalue⟩, ⟨conf, hparse, hread⟩, ?_⟩
  rintro ⟨conf', hparse', hback⟩
  rw [hparse, Option.some.injEq, Prod.mk.injEq] at hparse'
  have hwhole := hback []
  rw [← hparse'.2, hsect, hkey, hread, hvalue] at hwhole
  exact hshort (Option.some.inj hwhole)

end WrittenFile

end Conf
end GameServer
