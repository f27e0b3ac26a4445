import GameServer.Common.LineScanner

/-!
# The configuration file

`GameConf` of `config.cpp`.  `parse` reads a file line by line into a map from
lower-cased `section.key` names to the list of their values, and stops at the
first line it cannot make sense of.  It carries the section and the key of the
latest key line along, for the continuation lines.

`lineOf` says what a line is by its text alone, and `Line.Accepted` that a
continuation line needs a key to continue.  `parse_grammar` is the result: the
parser accepts exactly the files all of whose lines are accepted where they
stand, it reports the first other one, and what it has stored afterwards is
what the lines say, in their order.
-/

namespace GameServer
namespace Conf

open Lib LineScanner

/-! ## The class -/

/-- `makeKey`. -/
def makeKey (sect name : Text) : Text :=
  (sect ++ [46] ++ name).map toLower

/-- `values_`. -/
abbrev Values := Text → Option (List Text)

/-- `values_[name].push_back(value)`. -/
def Values.pushBack (values : Values) (name value : Text) : Values :=
  Function.update values name (some ((values name).getD [] ++ [value]))

/-- `MAX_LINE`. -/
def maxLine : Nat := 16 * 1024

/-- The section and the key that `parse` remembers from the lines before. -/
structure Context where
  sect : Text
  key : Text
deriving Repr, DecidableEq

/-- The variables of the loop of `parse`. -/
structure ParseState extends Context where
  values : Values

/-- The branch of `parse` for a section header; the scanner stands in front of
the bracket.  The flag is `err`. -/
def parseHeader (ln : Text) (ls : LineScanner) (st : ParseState) :
    Option (ParseState × Bool) := do
  let (sect, ls) ← (ls.skip 1).consumeTill ln 93
  let ls ← ls.matchChar ln 93
  return ({ st with sect := sect, key := [] }, ls.err)

/-- The branch of `parse` for a line that starts with white space. -/
def parseContinuation (ln : Text) (ls : LineScanner) (st : ParseState) :
    Option (ParseState × Bool) := do
  if st.key ≠ [] then
    let (text, _) ← ls.consumeTill ln 0
    let name := makeKey st.sect st.key
    return ({ st with values := st.values.pushBack name text }, false)
  else
    return (st, true)

/-- The branch of `parse` for a key line: first with an equals sign and, if
there is none, from the start again with a colon. -/
def parseEntry (ln : Text) (ls : LineScanner) (st : ParseState) :
    Option (ParseState × Bool) := do
  let (key, lse) ← ls.consumeTill ln 61
  let (c, lse) ← lse.peekChar ln
  if c = 61 then
    let value ← (lse.skip 1).consumeTillEnd ln
    let name := makeKey st.sect key
    return ({ st with key := key, values := st.values.pushBack name value },
      false)
  else
    let (key, lsc) ← ls.consumeTill ln 58
    let lsc ← lsc.matchChar ln 58
    -- also after a failed match, where it extracts nothing
    let value ← lsc.consumeTillEnd ln
    let name := makeKey st.sect key
    return ({ st with key := key, values := st.values.pushBack name value },
      lsc.err)

/-- The body of the loop of `parse`, with `err` after it. -/
def parseLine (ln : Text) (st : ParseState) : Option (ParseState × Bool) := do
  let (c, ls) ← construct.peekChar ln
  if c = 59 ∨ c = 35 ∨ c = 0 then
    return (st, false)
  else if c = 91 then
    parseHeader ln ls st
  else
    let first ← charAt ln 0
    if isSpace first then
      parseContinuation ln ls st
    else
      parseEntry ln ls st

/-- The loop of `parse`: the value it returns, and its variables at the end. -/
def parseLoop (stream : Text) (lineno : Nat) (st : ParseState) :
    Option (Nat × ParseState) :=
  match _ : fgets (maxLine - 2) stream with
  | none => some (0, st)
  | some (line, rest) =>
    match parseLine (cString line) st with
    | none => none
    | some (st, true) => some (lineno + 1, st)
    | some (st, false) => parseLoop rest (lineno + 1) st
termination_by stream.length
decreasing_by exact length_fgets_lt ‹_›

/-- `GameConf`. -/
structure GameConf where
  values : Values

namespace GameConf

/-- A new object. -/
def construct : GameConf := ⟨fun _ => none⟩

/-- `GameConf::parse` of a file with this content, or of one that cannot be
opened.  `none` is a read outside the line. -/
def parse (conf : GameConf) : Option Text → Option (Int × GameConf)
  | none => some (-1, conf)
  | some file =>
    (parseLoop file 0 ⟨⟨[], []⟩, conf.values⟩).map fun (iError, st) =>
      (iError, ⟨st.values⟩)

/-- `GameConf::Init`, with the value it returns. -/
def init (conf : GameConf) (exist : Bool) (file : Option Text) :
    Option (Bool × GameConf) :=
  if exist then
    (conf.parse file).map fun (iError, conf) => (iError ≤ 0, conf)
  else
    some (false, conf)

/-- `GameConf::get`; `back()` of an empty list has no result. -/
def get (conf : GameConf) (sect name default_value : Text) : Option Text :=
  match conf.values (makeKey sect name) with
  | none => some default_value
  | some list => list.getLast?

/-- `GameConf::getInteger`.  `strtol` gives the number at the front of a text
and how many characters it has read. -/
def getInteger (strtol : Text → Int × Nat) (conf : GameConf)
    (sect name : Text) (default_value : Int) : Option Int :=
  (conf.get sect name []).map fun value =>
    let (n, read) := strtol value
    if 0 < read then n else default_value

/-- The texts that `getBoolean` takes for true: `true`, `yes`, `on`, `1`. -/
def trueTexts : List Text :=
  [[116, 114, 117, 101], [121, 101, 115], [111, 110], [49]]

/-- Those for false: `false`, `no`, `off`, `0`. -/
def falseTexts : List Text :=
  [[102, 97, 108, 115, 101], [110, 111], [111, 102, 102], [48]]

/-- `GameConf::getBoolean`. -/
def getBoolean (conf : GameConf) (sect name : Text) (default_value : Bool) :
    Option Bool :=
  (conf.get sect name []).map fun value =>
    let valstr := value.map toLower
    if valstr ∈ trueTexts then
      true
    else if valstr ∈ falseTexts then
      false
    else
      default_value

end GameConf

/-! ## What a line is -/

/-- The kinds of lines. -/
inductive Line where
  /-- Nothing but white space, or a comment. -/
  | blank
  | header (sect : Text)
  | continuation (text : Text)
  | entry (key value : Text)
  | malformed
deriving Repr, DecidableEq

/-- The trimmed text in front of the first `c`. -/
def fieldTill (c : UInt8) (text : Text) : Text :=
  ((text.dropWhile isSpace).takeWhile (· != c)).rdropWhile isSpace

/-- The text behind the first `c`. -/
def behind (c : UInt8) (text : Text) : Text :=
  (text.dropWhile (· != c)).tail

/-- What a line is. -/
def lineOf (ln : Text) : Line :=
  match ln.dropWhile isSpace with
  | [] => .blank
  | c :: rest =>
    if c = 59 ∨ c = 35 then
      .blank
    else if c = 91 then
      if 93 ∈ rest then .header (fieldTill 93 rest) else .malformed
    else if isSpace (ln.headD 0) then
      .continuation ((c :: rest).rdropWhile isSpace)
    else if 61 ∈ ln then
      .entry (fieldTill 61 ln) (valueOf (behind 61 ln))
    else if 58 ∈ ln then
      .entry (fieldTill 58 ln) (valueOf (behind 58 ln))
    else
      .malformed

/-- A line that has its place behind the lines before it: a continuation needs
a key. -/
def Line.Accepted (context : Context) : Line → Prop
  | .blank | .header _ | .entry _ _ => True
  | .continuation _ => context.key ≠ []
  | .malformed => False

instance (context : Context) (line : Line) :
    Decidable (line.Accepted context) :=
  match line with
  | .blank | .header _ | .entry _ _ => isTrue trivial
  | .continuation _ => inferInstanceAs (Decidable (context.key ≠ []))
  | .malformed => isFalse id

/-- What the lines behind this one see. -/
def Context.next (context : Context) : Line → Context
  | .header sect => ⟨sect, []⟩
  | .entry key _ => { context with key := key }
  | .blank | .continuation _ | .malformed => context

/-- The name and the value that a line stores. -/
def Line.stores (context : Context) : Line → Option (Text × Text)
  | .continuation text => some (makeKey context.sect context.key, text)
  | .entry key value => some (makeKey context.sect key, value)
  | .blank | .header _ | .malformed => none

/-- The variables of the loop behind a line. -/
def ParseState.read (st : ParseState) (line : Line) : ParseState where
  toContext := st.toContext.next line
  values :=
    match line.stores st.toContext with
    | none => st.values
    | some (name, value) => st.values.pushBack name value

/-! ## One line -/

/-- Skipping white space loses no other character. -/
theorem mem_dropWhile_isSpace {c : UInt8} (hc : isSpace c = false)
    {text : Text} : c ∈ text.dropWhile isSpace ↔ c ∈ text := by
  induction text with
  | nil => rfl
  | cons d rest ih =>
    by_cases hd : isSpace d
    · have hne : c ≠ d := fun heq => by simp [heq, hd] at hc
      rw [List.dropWhile_cons_of_pos hd, ih, List.mem_cons, or_iff_right hne]
    · rw [List.dropWhile_cons_of_neg hd]

theorem cons_behind_suffix {c : UInt8} {text : Text} (h : c ∈ text) : c :: behind c text <:+ text :=
  ⟨_, (takeWhile_append_of_mem h).symm⟩

/-- What a pointer reads in front of a text without `c` is not `c`. -/
theorem headD_ne_of_not_mem {c : UInt8} (hc : c ≠ 0) {text : Text}
    (h : c ∉ text) : text.headD 0 ≠ c := by
  cases text with
  | nil => exact Ne.symm hc
  | cons d rest => exact fun heq => h (List.mem_cons.mpr (.inl heq.symm))

section Branches

variable {ln text : Text} (hsuffix : text <:+ ln) (hnul : 0 ∉ ln)

include hsuffix hnul

/-- `consumeTill` in terms of the field it cuts out. -/
theorem consumeTill_before_of_mem {c : UInt8} (hmem : c ∈ text.dropWhile isSpace) :
    (before ln text).consumeTill ln c = some (fieldTill c text,
        before ln (c :: behind c (text.dropWhile isSpace))) :=
  consumeTill_before hsuffix hnul (takeWhile_append_of_mem hmem) (not_mem_takeWhile c _) rfl

theorem parseHeader_of_mem {rest : Text} (htext : text = 91 :: rest)
    (hmem : 93 ∈ rest) (st : ParseState) :
    parseHeader ln (before ln text) st = some (st.read (.header (fieldTill 93 rest)), false) := by
  have hrest : rest <:+ ln :=
    (List.suffix_cons 91 rest).trans (htext ▸ hsuffix)
  have hskipped := (mem_dropWhile_isSpace rfl).mpr hmem
  have hbracket : 93 :: behind 93 (rest.dropWhile isSpace) <:+ ln :=
    (cons_behind_suffix hskipped).trans ((List.dropWhile_suffix isSpace).trans hrest)
  rw [parseHeader, skip_before hsuffix htext, consumeTill_before_of_mem hrest hnul hskipped]
  simp only [Option.bind_eq_bind, Option.bind_some]
  rw [matchChar_before hbracket hnul rfl rfl]
  rfl

/-- Without a closing bracket `match` fails, because it reads a character of
the header that is not one. -/
theorem parseHeader_of_not_mem {rest : Text} (htext : text = 91 :: rest)
    (hmem : 93 ∉ rest) (st : ParseState) :
    ∃ after, parseHeader ln (before ln text) st = some (after, true) := by
  have hrest : rest <:+ ln :=
    (List.suffix_cons 91 rest).trans (htext ▸ hsuffix)
  have hskipped := mt (mem_dropWhile_isSpace rfl).mp hmem
  have hread := charAt_posOf ((List.dropWhile_suffix isSpace).trans hrest)
  have hne := headD_ne_of_not_mem (by decide) hskipped
  rw [parseHeader, skip_before hsuffix htext,
    consumeTill_before_of_not_mem hrest hnul (by decide) hskipped]
  simp only [Option.bind_eq_bind, Option.bind_some]
  rw [matchChar_err rfl hread]
  simpa using hne

theorem parseContinuation_of_key {st : ParseState} (hkey : st.key ≠ [])
    (htext : text.dropWhile isSpace = text) :
    parseContinuation ln (before ln text) st =
      some (st.read (.continuation (text.rdropWhile isSpace)), false) := by
  have hword : (0 : UInt8) ∉ text :=
    not_mem_of_suffix hsuffix (List.suffix_refl text) hnul
  rw [parseContinuation, if_pos hkey,
    consumeTill_before hsuffix hnul (htext.trans (List.append_nil text).symm) hword rfl]
  rfl

end Branches

section Entry

variable {ln : Text} (hnul : 0 ∉ ln) (hskip : ln.dropWhile isSpace = ln)

include hnul hskip

theorem parseEntry_of_equals (hmem : 61 ∈ ln) (st : ParseState) :
    parseEntry ln (before ln ln) st =
      some (st.read (.entry (fieldTill 61 ln) (valueOf (behind 61 ln))), false) := by
  have hequals : 61 :: behind 61 ln <:+ ln := cons_behind_suffix hmem
  have hdrop : (61 :: behind 61 ln).dropWhile isSpace = 61 :: behind 61 ln :=
    List.dropWhile_cons_of_neg (by decide)
  have hpeek := peekChar_before hequals hnul
  rw [hdrop] at hpeek
  rw [parseEntry, consumeTill_before_of_mem (List.suffix_refl ln) hnul (hskip.symm ▸ hmem), hskip]
  simp only [Option.bind_eq_bind, Option.bind_some]
  rw [hpeek]
  simp only [Option.bind_some, List.headD_cons, if_true]
  rw [skip_before hequals rfl, consumeTillEnd_before ((List.suffix_cons 61 _).trans hequals) hnul]
  rfl

/-- The first attempt fails with the error flag set, so that the character
under the cursor is looked at as it is. -/
theorem parseEntry_of_not_equals (hmem : 61 ∉ ln) (st : ParseState) :
    parseEntry ln (before ln ln) st = (do
      let (key, lsc) ← (before ln ln).consumeTill ln 58
      let lsc ← lsc.matchChar ln 58
      let value ← lsc.consumeTillEnd ln
      return (st.read (.entry key value), lsc.err)) := by
  have hread := charAt_posOf (List.suffix_refl ln)
  have hne := headD_ne_of_not_mem (by decide) hmem
  rw [parseEntry, consumeTill_before_of_not_mem (List.suffix_refl ln) hnul
    (by decide) (hskip.symm ▸ hmem), hskip]
  simp only [Option.bind_eq_bind, Option.bind_some]
  rw [peekChar_err rfl hread]
  simp only [Option.bind_some, hne, if_false]
  rfl

theorem parseEntry_of_colon (hequals : 61 ∉ ln) (hmem : 58 ∈ ln) (st : ParseState) :
    parseEntry ln (before ln ln) st =
      some (st.read (.entry (fieldTill 58 ln) (valueOf (behind 58 ln))), false) := by
  have hcolon : 58 :: behind 58 ln <:+ ln := cons_behind_suffix hmem
  rw [parseEntry_of_not_equals hnul hskip hequals,
    consumeTill_before_of_mem (List.suffix_refl ln) hnul (hskip.symm ▸ hmem),
    hskip]
  simp only [Option.bind_eq_bind, Option.bind_some]
  rw [matchChar_before hcolon hnul rfl rfl, Option.bind_some,
    consumeTillEnd_before ((List.suffix_cons 58 _).trans hcolon) hnul]
  rfl

theorem parseEntry_of_neither (hequals : 61 ∉ ln) (hmem : 58 ∉ ln) (st : ParseState) :
    ∃ after, parseEntry ln (before ln ln) st = some (after, true) := by
  have hread := charAt_posOf (List.suffix_refl ln)
  have hne := headD_ne_of_not_mem (by decide) hmem
  rw [parseEntry_of_not_equals hnul hskip hequals,
    consumeTill_before_of_not_mem (List.suffix_refl ln) hnul (by decide) (hskip.symm ▸ hmem), hskip]
  simp only [Option.bind_eq_bind, Option.bind_some]
  rw [matchChar_err rfl hread, Option.bind_some, consumeTillEnd_err (by simpa using hne)]
  simpa using hne

end Entry

/-- The loop body in terms of the character it branches on. -/
theorem parseLine_eq {ln : Text} (hnul : 0 ∉ ln) (st : ParseState) :
    parseLine ln st =
      match ln.dropWhile isSpace with
      | [] => some (st, false)
      | c :: rest =>
        if c = 59 ∨ c = 35 then
          some (st, false)
        else if c = 91 then
          parseHeader ln (before ln (c :: rest)) st
        else if isSpace (ln.headD 0) then
          parseContinuation ln (before ln (c :: rest)) st
        else
          parseEntry ln (before ln (c :: rest)) st := by
  have hread : charAt ln 0 = some (ln.headD 0) := by
    simpa using charAt_posOf (List.suffix_refl ln)
  rw [parseLine, construct_eq_before ln, peekChar_before (List.suffix_refl ln) hnul]
  simp only [Option.bind_eq_bind, Option.bind_some, hread]
  cases hskip : ln.dropWhile isSpace with
  | nil => rfl
  | cons c rest =>
    have hc : c ≠ 0 := by
      rintro rfl
      exact hnul ((List.dropWhile_suffix isSpace).mem (hskip ▸ List.mem_cons_self))
    simp only [List.headD_cons, hc, or_false]
    rfl

/-- The two ways in which the loop body may end for a line of a kind. -/
def Reads (st : ParseState) (line : Line)
    (result : Option (ParseState × Bool)) : Prop :=
  line.Accepted st.toContext ∧ result = some (st.read line, false) ∨
    ¬ line.Accepted st.toContext ∧ ∃ after, result = some (after, true)

/-- An accepted line is read as what it is, any other is an error. -/
theorem reads_parseLine {ln : Text} (hnul : 0 ∉ ln) (st : ParseState) :
    Reads st (lineOf ln) (parseLine ln st) := by
  rw [parseLine_eq hnul, lineOf]
  cases hskip : ln.dropWhile isSpace with
  | nil => exact .inl ⟨trivial, rfl⟩
  | cons c rest =>
    have hsuffix : c :: rest <:+ ln := hskip ▸ List.dropWhile_suffix isSpace
    dsimp only
    by_cases hcomment : c = 59 ∨ c = 35
    · rw [if_pos hcomment, if_pos hcomment]
      exact .inl ⟨trivial, rfl⟩
    rw [if_neg hcomment, if_neg hcomment]
    by_cases hbracket : c = 91
    · rw [if_pos hbracket, if_pos hbracket]
      by_cases hclosing : 93 ∈ rest
      · rw [if_pos hclosing]
        exact .inl ⟨trivial, parseHeader_of_mem hsuffix hnul (by rw [hbracket]) hclosing st⟩
      · rw [if_neg hclosing]
        exact .inr ⟨id, parseHeader_of_not_mem hsuffix hnul (by rw [hbracket]) hclosing st⟩
    rw [if_neg hbracket, if_neg hbracket]
    by_cases hspace : isSpace (ln.headD 0) = true
    · rw [if_pos hspace, if_pos hspace]
      by_cases hkey : st.key = []
      · refine .inr ⟨fun haccepted => haccepted hkey, st, ?_⟩
        rw [parseContinuation, if_neg (not_not.mpr hkey)]
        rfl
      · have hagain : (c :: rest).dropWhile isSpace = c :: rest := by
          rw [← hskip, List.dropWhile_idempotent]
        exact .inl ⟨hkey, parseContinuation_of_key hsuffix hnul hkey hagain⟩
    rw [if_neg hspace, if_neg hspace]
    -- nothing has been skipped
    have hself : ln.dropWhile isSpace = ln := by
      cases ln with
      | nil => rfl
      | cons d tail => exact List.dropWhile_cons_of_neg hspace
    rw [← hskip, hself]
    by_cases hequals : 61 ∈ ln
    · rw [if_pos hequals]
      exact .inl ⟨trivial, parseEntry_of_equals hnul hself hequals st⟩
    rw [if_neg hequals]
    by_cases hcolon : 58 ∈ ln
    · rw [if_pos hcolon]
      exact .inl ⟨trivial, parseEntry_of_colon hnul hself hequals hcolon st⟩
    · rw [if_neg hcolon]
      exact .inr ⟨id, parseEntry_of_neither hnul hself hequals hcolon st⟩

/-! ## The whole file -/

/-- Every line has its place behind those before it. -/
def AllAccepted : Context → List Text → Prop
  | _, [] => True
  | context, ln :: rest =>
    (lineOf ln).Accepted context ∧ AllAccepted (context.next (lineOf ln)) rest

instance decidableAllAccepted (context : Context) (lines : List Text) :
    Decidable (AllAccepted context lines) :=
  match lines with
  | [] => isTrue trivial
  | ln :: rest =>
    have := decidableAllAccepted (context.next (lineOf ln)) rest
    inferInstanceAs (Decidable ((lineOf ln).Accepted context ∧
      AllAccepted (context.next (lineOf ln)) rest))

/-- What the lines behind a list of lines see. -/
def contextAfter : Context → List Text → Context
  | context, [] => context
  | context, ln :: rest => contextAfter (context.next (lineOf ln)) rest

/-- What a list of lines stores, in order. -/
def stored : Context → List Text → List (Text × Text)
  | _, [] => []
  | context, ln :: rest =>
    ((lineOf ln).stores context).toList ++ stored (context.next (lineOf ln)) rest

/-- The values stored under a name. -/
def valuesNamed (name : Text) (entries : List (Text × Text)) : List Text :=
  (entries.filter fun entry => entry.1 = name).map Prod.snd

/-- The variables of the loop behind a list of lines. -/
def ParseState.readAll : ParseState → List Text → ParseState
  | st, [] => st
  | st, ln :: rest => (st.read (lineOf ln)).readAll rest

variable {stream : Text}

theorem parseLoop_of_none (h : fgets (maxLine - 2) stream = none) (lineno : Nat)
    (st : ParseState) : parseLoop stream lineno st = some (0, st) := by
  unfold parseLoop
  split
  · rfl
  · next hsome => simp [h] at hsome

theorem parseLoop_of_some {line rest : Text}
    (h : fgets (maxLine - 2) stream = some (line, rest)) (lineno : Nat)
    (st : ParseState) :
    parseLoop stream lineno st =
      match parseLine (cString line) st with
      | none => none
      | some (st, true) => some (lineno + 1, st)
      | some (st, false) => parseLoop rest (lineno + 1) st := by
  rw [parseLoop]
  split
  · next hnone => simp [h] at hnone
  · next hsome =>
    rw [h, Option.some.injEq, Prod.mk.injEq] at hsome
    rw [hsome.1, hsome.2]

/-- One more accepted line. -/
theorem parseLoop_of_accepted {line rest : Text}
    (h : fgets (maxLine - 2) stream = some (line, rest)) (lineno : Nat)
    {st : ParseState}
    (haccepted : (lineOf (cString line)).Accepted st.toContext) :
    parseLoop stream lineno st = parseLoop rest (lineno + 1) (st.read (lineOf (cString line))) := by
  rcases reads_parseLine (not_mem_cString line) st with ⟨-, hline⟩ | ⟨hno, -⟩
  · rw [parseLoop_of_some h, hline]
  · exact absurd haccepted hno

/-- The loop reads a file of accepted lines to its end. -/
theorem parseLoop_of_allAccepted {buffers : List Text}
    (hbuffers : fgetsLines (maxLine - 2) stream = buffers) (lineno : Nat)
    (st : ParseState)
    (haccepted : AllAccepted st.toContext (buffers.map cString)) :
    parseLoop stream lineno st = some (0, st.readAll (buffers.map cString)) := by
  induction buffers generalizing stream lineno st with
  | nil =>
    rw [parseLoop_of_none (fgets_eq_none_of_fgetsLines hbuffers)]
    rfl
  | cons line lines ih =>
    obtain ⟨rest, hfgets, hrest⟩ := exists_fgets_of_fgetsLines hbuffers
    rw [parseLoop_of_accepted hfgets lineno haccepted.1]
    exact ih hrest (lineno + 1) _ haccepted.2

/-- The loop stops at the first line that is not accepted. -/
theorem parseLoop_of_rejected {front back : List Text} {line : Text}
    (hbuffers : fgetsLines (maxLine - 2) stream = front ++ line :: back)
    (lineno : Nat) (st : ParseState)
    (haccepted : AllAccepted st.toContext (front.map cString))
    (hrejected : ¬ (lineOf (cString line)).Accepted
      (contextAfter st.toContext (front.map cString))) :
    ∃ after, parseLoop stream lineno st = some (lineno + front.length + 1, after) := by
  induction front generalizing stream lineno st with
  | nil =>
    obtain ⟨rest, hfgets, -⟩ := exists_fgets_of_fgetsLines hbuffers
    rcases reads_parseLine (not_mem_cString line) st with
      ⟨hyes, -⟩ | ⟨-, after, hline⟩
    · exact absurd hyes hrejected
    · refine ⟨after, ?_⟩
      rw [parseLoop_of_some hfgets, hline]
      rfl
  | cons first front ih =>
    obtain ⟨rest, hfgets, hrest⟩ := exists_fgets_of_fgetsLines hbuffers
    obtain ⟨after, hafter⟩ := ih hrest (lineno + 1)
      (st.read (lineOf (cString first))) haccepted.2 hrejected
    refine ⟨after, ?_⟩
    rw [parseLoop_of_accepted hfgets lineno haccepted.1, hafter, List.length_cons]
    congr 2
    omega

/-- Either all lines are accepted, or there is a first one that is not. -/
theorem allAccepted_or_first (context : Context) (lines : List Text) :
    AllAccepted context lines ∨
      ∃ front ln back, lines = front ++ ln :: back ∧ AllAccepted context front ∧
        ¬ (lineOf ln).Accepted (contextAfter context front) := by
  induction lines generalizing context with
  | nil => exact .inl trivial
  | cons ln rest ih =>
    by_cases hline : (lineOf ln).Accepted context
    · rcases ih (context.next (lineOf ln)) with
        hall | ⟨front, bad, back, hsplit, hfront, hbad⟩
      · exact .inl ⟨hline, hall⟩
      · exact .inr ⟨ln :: front, bad, back, by rw [hsplit]; rfl, ⟨hline, hfront⟩, hbad⟩
    · exact .inr ⟨[], ln, rest, rfl, trivial, hline⟩

/-- A rejected line behind accepted ones excludes that all are accepted. -/
theorem not_allAccepted {context : Context} {front back : List Text} {ln : Text}
    (hrejected : ¬ (lineOf ln).Accepted (contextAfter context front)) :
    ¬ AllAccepted context (front ++ ln :: back) := by
  induction front generalizing context with
  | nil => exact fun h => hrejected h.1
  | cons first front ih => exact fun h => ih hrejected h.2

theorem valuesNamed_append (name : Text) (first second : List (Text × Text)) :
    valuesNamed name (first ++ second) = valuesNamed name first ++ valuesNamed name second := by
  simp [valuesNamed]

/-- What has been stored under a name behind a list of lines. -/
theorem values_readAll (st : ParseState) (lines : List Text) (name : Text) :
    (st.readAll lines).values name =
      if valuesNamed name (stored st.toContext lines) = [] then
        st.values name
      else
        some ((st.values name).getD [] ++ valuesNamed name (stored st.toContext lines)) := by
  induction lines generalizing st with
  | nil => rfl
  | cons ln rest ih =>
    have hcontext : (st.read (lineOf ln)).toContext = st.toContext.next (lineOf ln) := rfl
    rw [ParseState.readAll, ih, stored, hcontext, valuesNamed_append]
    cases hstores : (lineOf ln).stores st.toContext with
    | none =>
      have hvalues : (st.read (lineOf ln)).values = st.values := by
        rw [ParseState.read, hstores]
      rw [hvalues]
      rfl
    | some entry =>
      have hvalues : (st.read (lineOf ln)).values = st.values.pushBack entry.1 entry.2 := by
        rw [ParseState.read, hstores]
      rw [hvalues, Values.pushBack]
      by_cases hname : entry.1 = name
      · have hnamed : valuesNamed name [entry] = [entry.2] := by
          simp [valuesNamed, hname]
        rw [Option.toList_some, hnamed, hname, Function.update_self]
        rw [if_neg (List.append_ne_nil_of_left_ne_nil (List.cons_ne_nil _ _) _)]
        split_ifs with hrest
        · rw [hrest, List.append_nil]
        · rw [Option.getD_some, List.append_assoc]
      · have hnamed : valuesNamed name [entry] = [] := by
          simp [valuesNamed, hname]
        rw [Option.toList_some, hnamed, List.nil_append, Function.update_of_ne (Ne.symm hname)]

/-! ## The grammar -/

/-- Before the first line. -/
def Context.start : Context := ⟨[], []⟩

/-- The lines of a file as `parse` sees them. -/
def linesRead (file : Text) : List Text :=
  (fgetsLines (maxLine - 2) file).map cString

/-- On a file of accepted lines `parse` succeeds, and stores what they say. -/
theorem parse_of_allAccepted {file : Text} (conf : GameConf)
    (haccepted : AllAccepted .start (linesRead file)) :
    conf.parse (some file) = some (0, ⟨(ParseState.readAll
      ⟨.start, conf.values⟩ (linesRead file)).values⟩) := by
  have hloop := parseLoop_of_allAccepted rfl 0 ⟨.start, conf.values⟩ haccepted
  rw [GameConf.parse, ← Context.start, hloop]
  rfl

/-- A new object holds, after a successful `parse`, the values of the lines. -/
theorem exists_parse_of_allAccepted {file : Text}
    (haccepted : AllAccepted .start (linesRead file)) :
    ∃ conf, GameConf.construct.parse (some file) = some (0, conf) ∧ ∀ name, conf.values name =
        let values := valuesNamed name (stored .start (linesRead file))
        if values = [] then none else some values :=
  ⟨_, parse_of_allAccepted _ haccepted, values_readAll
    ⟨.start, GameConf.construct.values⟩ (linesRead file)⟩

/-- On any other file it returns the number of the first other line. -/
theorem parse_of_rejected {file ln : Text} {front back : List Text}
    (hlines : linesRead file = front ++ ln :: back) (conf : GameConf)
    (haccepted : AllAccepted .start front)
    (hrejected : ¬ (lineOf ln).Accepted (contextAfter .start front)) :
    ∃ after, conf.parse (some file) = some (((front.length + 1 : Nat) : Int), after) := by
  obtain ⟨buffers, rest, hbuffers, rfl, hrest⟩ :=
    List.map_eq_append_iff.mp hlines
  obtain ⟨line, others, rfl, rfl, -⟩ := List.map_eq_cons_iff.mp hrest
  obtain ⟨after, hloop⟩ := parseLoop_of_rejected hbuffers 0
    ⟨.start, conf.values⟩ haccepted hrejected
  refine ⟨⟨after.values⟩, ?_⟩
  rw [GameConf.parse, ← Context.start, hloop, Nat.zero_add, List.length_map]
  rfl

/-- In a text file whose lines fit the buffer, what `parse` sees are the
lines. -/
theorem linesRead_eq_linesOf {file : Text} (hnul : 0 ∉ file)
    (hfit : ∀ line ∈ linesOf file, line.length ≤ maxLine - 1) :
    linesRead file = linesOf file := by
  have hbuffers : fgetsLines (maxLine - 2) file = linesOf file :=
    fgetsLines_eq_linesOf hfit
  rw [linesRead, hbuffers]
  conv_rhs => rw [← List.map_id (linesOf file)]
  refine List.map_congr_left fun line hline => ?_
  exact cString_eq_self fun h => hnul (mem_of_mem_linesOf hline h)

/-- The parser accepts its grammar.  On a file without NUL whose lines fit the
buffer it returns `0` exactly if every line is accepted in its place, and the
number of the first other line if not.  When it returns `0`, each name has the
values of its key and continuation lines in the order of the file, and a name
without any is not in the map. -/
theorem parse_grammar {file : Text} (hnul : 0 ∉ file)
    (hfit : ∀ line ∈ linesOf file, line.length ≤ maxLine - 1) :
    ∃ iError conf, GameConf.construct.parse (some file) = some (iError, conf) ∧
      (iError = 0 ↔ AllAccepted .start (linesOf file)) ∧
      (iError ≠ 0 → ∃ front ln back, linesOf file = front ++ ln :: back ∧
          iError = ((front.length + 1 : Nat) : Int) ∧
          AllAccepted .start front ∧
          ¬ (lineOf ln).Accepted (contextAfter .start front)) ∧
      (iError = 0 → ∀ name, conf.values name =
        let values := valuesNamed name (stored .start (linesOf file))
        if values = [] then none else some values) := by
  have hlines := linesRead_eq_linesOf hnul hfit
  rcases allAccepted_or_first .start (linesOf file) with
    hall | ⟨front, ln, back, hsplit, hfront, hbad⟩
  · obtain ⟨conf, hparse, hvalues⟩ :=
      exists_parse_of_allAccepted (hlines.symm ▸ hall)
    rw [hlines] at hvalues
    exact ⟨0, conf, hparse, iff_of_true rfl hall, fun h => absurd rfl h, fun _ => hvalues⟩
  · obtain ⟨conf, hparse⟩ := parse_of_rejected (hlines.trans hsplit) GameConf.construct hfront hbad
    have hne : ((front.length + 1 : Nat) : Int) ≠ 0 := by omega
    refine ⟨_, conf, hparse, iff_of_false hne ?_,
      fun _ => ⟨front, ln, back, hsplit, rfl, hfront, hbad⟩,
      fun h => absurd h hne⟩
    rw [hsplit]
    exact not_allAccepted hbad

/-- A file of three lines: `[a]`, `b=c` and a continuation. -/
theorem parse_grammar_three_lines :
    (0 ∉ ([91, 97, 93, 10, 98, 61, 99, 10, 32, 100] : Text) ∧
      ∀ line ∈ linesOf [91, 97, 93, 10, 98, 61, 99, 10, 32, 100], line.length ≤ maxLine - 1) ∧
    ∃ conf, GameConf.construct.parse
        (some [91, 97, 93, 10, 98, 61, 99, 10, 32, 100]) = some (0, conf) ∧
      conf.values [97, 46, 98] = some [[99], [100]] := by
  have hnul : 0 ∉ ([91, 97, 93, 10, 98, 61, 99, 10, 32, 100] : Text) := by
    decide
  have hfit : ∀ line ∈ linesOf [91, 97, 93, 10, 98, 61, 99, 10, 32, 100],
      line.length ≤ maxLine - 1 := by
    decide
  obtain ⟨iError, conf, hparse, hzero, -, hvalues⟩ := parse_grammar hnul hfit
  have hresult : iError = 0 := hzero.mpr (by decide +kernel)
  refine ⟨⟨hnul, hfit⟩, conf, hresult ▸ hparse, ?_⟩
  rw [hvalues hresult]
  decide +kernel

/-! ## Reads stay inside the line -/

/-- A buffer with a NUL is its C string, the NUL and what is behind it. -/
theorem exists_eq_cString_append {buffer : Text} (hnul : 0 ∈ buffer) :
    ∃ behind, buffer = cString buffer ++ 0 :: behind :=
  ⟨_, takeWhile_append_of_mem hnul⟩

/-- The loop body comes to its end on every line. -/
theorem exists_parseLine (buffer : Text) (st : ParseState) :
    ∃ result, parseLine (cString buffer) st = some result := by
  rcases reads_parseLine (not_mem_cString buffer) st with
    ⟨-, hread⟩ | ⟨-, after, herr⟩
  · exact ⟨_, hread⟩
  · exact ⟨_, herr⟩

/-- `parse` comes to its end on every file. -/
theorem exists_parse (conf : GameConf) (file : Text) :
    ∃ result, conf.parse (some file) = some result := by
  rcases allAccepted_or_first .start (linesRead file) with
    hall | ⟨front, ln, back, hsplit, hfront, hbad⟩
  · exact ⟨_, parse_of_allAccepted conf hall⟩
  · obtain ⟨after, hparse⟩ := parse_of_rejected hsplit conf hfront hbad
    exact ⟨_, hparse⟩

/-- The scanner never reads outside the line.  In the model every `*p` is a
`charAt`, which has a character of the buffer up to and including its NUL and
none behind it, and with one read outside the loop body has no result.  It has
one for every buffer and whatever section and key are current. -/
theorem reads_inside_line {buffer : Text} (hnul : 0 ∈ buffer) (st : ParseState) :
    buffer[(cString buffer).length]? = some 0 ∧
    (∀ p, charAt (cString buffer) p =
      if p ≤ (cString buffer).length then buffer[p]? else none) ∧
    ∃ result, parseLine (cString buffer) st = some result := by
  obtain ⟨behind, hbuffer⟩ := exists_eq_cString_append hnul
  refine ⟨?_, fun p => ?_, exists_parseLine buffer st⟩
  · have hat := charAt_eq_of_terminated (cString buffer) behind (cString buffer).length
    rw [if_pos (Nat.le_refl _), ← hbuffer, charAt_length] at hat
    exact hat.symm
  · have hat := charAt_eq_of_terminated (cString buffer) behind p
    rwa [← hbuffer] at hat

/-- A lone bracket.  The failed match moves the cursor behind the NUL, where a
read would fail, and nothing is read there. -/
theorem reads_inside_line_bracket :
    0 ∈ ([91, 0, 93, 0] : Text) ∧
    (LineScanner.mk 1 true).matchChar (cString [91, 0, 93, 0]) 93 = some ⟨2, true⟩ ∧
    charAt (cString [91, 0, 93, 0]) 2 = none ∧
    ∃ result, parseLine (cString [91, 0, 93, 0])
      ⟨.start, GameConf.construct.values⟩ = some result := by
  have hnul : 0 ∈ ([91, 0, 93, 0] : Text) := by decide
  obtain ⟨-, hread, hline⟩ :=
    reads_inside_line hnul ⟨.start, GameConf.construct.values⟩
  refine ⟨hnul, by decide, ?_, hline⟩
  rw [hread]
  decide

end Conf
end GameServer
