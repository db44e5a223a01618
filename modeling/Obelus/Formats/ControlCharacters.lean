import Obelus.Formats.CutArguments

/-!
# Raw control characters

A document whose strings hold raw control characters is meant as the document
whose strings hold their escapes.  The repair escapes every control character of
the text, in a string or not, so it reaches that document exactly when no
control character stands outside the strings.
-/

namespace Obelus.Formats

open Obelus.Data.ListDecide List
open Obelus.Data.JsonText

inductive StringState
  | outside
  | inside
  | escaped
  deriving DecidableEq

def StringState.next : StringState → Char → StringState
  | .outside, c => if c = '"' then .inside else .outside
  | .inside, c => if c = '\\' then .escaped else if c = '"' then .outside else .inside
  | .escaped, _ => .inside

/-- A control character stands at the place. -/
def ControlAt (place : StringState) : StringState → List Char → Prop
  | _, [] => False
  | state, c :: rest =>
    (state = place ∧ c.val ≤ 0x1F) ∨ ControlAt place (state.next c) rest

/-- The text with the control characters in its strings escaped. -/
def escapeInStrings : StringState → List Char → List Char
  | _, [] => []
  | state, c :: rest =>
    if state = .inside ∧ c.val ≤ 0x1F then escapeControl c ++ escapeInStrings .inside rest
    else c :: escapeInStrings (state.next c) rest

/-- The document that a text with raw control characters in its strings means. -/
def meantText (text : String) : String :=
  String.ofList (escapeInStrings .outside text.toList)

/-- The text with all its control characters escaped. -/
def escapeAll (text : List Char) : List Char :=
  text.flatMap fun c => if c.val ≤ 0x1F then escapeControl c else [c]

/-- The characters of which escapes of control characters are made. -/
def escapeLetters : List Char :=
  ['b', 'f', 'n', 'r', 't', 'u', '0', '1', '2', '3', '4', '5', '6', '7', '8', '9', 'a', 'c', 'd',
    'e']

variable {c : Char} {state last : StringState} {body text : List Char}

theorem exists_escapeLetters (control : c.val ≤ 0x1F) :
    ∃ first rest, escapeControl c = '\\' :: first :: rest ∧
      ∀ letter ∈ first :: rest, letter ∈ escapeLetters := by
  have hex : ∀ n < 16, hexDigit n ∈ escapeLetters := by decide
  have small : c.toNat ≤ 31 := control
  unfold escapeControl
  split_ifs
  · exact ⟨'b', [], rfl, by decide⟩
  · exact ⟨'f', [], rfl, by decide⟩
  · exact ⟨'n', [], rfl, by decide⟩
  · exact ⟨'r', [], rfl, by decide⟩
  · exact ⟨'t', [], rfl, by decide⟩
  · refine ⟨'u', _, rfl, ?_⟩
    have high := hex (c.toNat / 16) (by omega)
    have low := hex (c.toNat % 16) (by omega)
    simp only [forall_mem_cons, high, low]
    decide

/-- The characters that the scan treats specially. -/
def scannedChars : List Char :=
  ['"', '\\', '{', '[', '}', ']']

/-- Any other character only ends an escape. -/
def ScanState.pass (state : ScanState) : ScanState :=
  if state.inString then { state with escapeNext := false } else state

theorem scan_of_not_mem (other : c ∉ scannedChars) (state : ScanState) :
    state.scan c = some state.pass := by
  simp only [scannedChars, mem_cons, not_or] at other
  rcases state with ⟨inString, escapeNext, depth⟩
  cases inString <;> cases escapeNext <;>
    simp [ScanState.scan, ScanState.pass, *]

theorem not_mem_scannedChars_of_control (control : c.val ≤ 0x1F) : c ∉ scannedChars := by
  have visible : ∀ c ∈ scannedChars, ¬c.val ≤ 0x1F := by decide
  exact fun member => visible c member control

theorem pass_pass (state : ScanState) : state.pass.pass = state.pass := by
  rcases state with ⟨inString, escapeNext, depth⟩
  cases inString <;> rfl

theorem scan_letters {letters : List Char}
    (areLetters : ∀ letter ∈ letters, letter ∈ escapeLetters) {state : ScanState}
    (passed : state.pass = state) : letters.foldlM ScanState.scan state = some state := by
  induction letters with
  | nil => rfl
  | cons letter rest ih =>
    have other : ∀ letter ∈ escapeLetters, letter ∉ scannedChars := by decide
    obtain ⟨isLetter, restLetters⟩ := forall_mem_cons.mp areLetters
    rw [foldlM_cons, scan_of_not_mem (other letter isLetter), passed]
    exact ih restLetters

/-- The scan does not tell an escape from the control character. -/
theorem scan_escapeControl (control : c.val ≤ 0x1F) (state : ScanState) :
    (escapeControl c).foldlM ScanState.scan state = state.scan c := by
  obtain ⟨first, rest, equal, letters⟩ := exists_escapeLetters control
  obtain ⟨isLetter, restLetters⟩ := forall_mem_cons.mp letters
  have other : ∀ letter ∈ escapeLetters, letter ∉ scannedChars := by decide
  have slash : ∃ middle, state.scan '\\' = some middle ∧ middle.pass = state.pass := by
    rcases state with ⟨inString, escapeNext, depth⟩
    cases inString <;> cases escapeNext <;> exact ⟨_, rfl, rfl⟩
  obtain ⟨middle, slashed, passed⟩ := slash
  rw [equal, scan_of_not_mem (not_mem_scannedChars_of_control control), foldlM_cons, slashed]
  have letter := scan_of_not_mem (other first isLetter) middle
  have afterLetter : (first :: rest).foldlM ScanState.scan middle = some state.pass := by
    rw [foldlM_cons, letter, passed]
    exact scan_letters restLetters (pass_pass state)
  exact afterLetter

theorem scan_escapeAll (text : List Char) (state : ScanState) :
    (escapeAll text).foldlM ScanState.scan state = text.foldlM ScanState.scan state := by
  induction text generalizing state with
  | nil => rfl
  | cons c rest ih =>
    have one : (if c.val ≤ 0x1F then escapeControl c else [c]).foldlM ScanState.scan state =
        state.scan c := by
      split
      · next control => exact scan_escapeControl control state
      · rw [foldlM_cons]
        cases state.scan c <;> rfl
    rw [escapeAll, flatMap_cons, foldlM_append, one]
    exact congrArg _ (funext ih)

theorem scan_escapeInStrings (place : StringState) (text : List Char) (state : ScanState) :
    (escapeInStrings place text).foldlM ScanState.scan state =
      text.foldlM ScanState.scan state := by
  induction text generalizing place state with
  | nil => rfl
  | cons c rest ih =>
    rw [escapeInStrings]
    split
    · next isRaw =>
      rw [foldlM_append, scan_escapeControl isRaw.2]
      exact congrArg _ (funext (ih .inside))
    · rw [foldlM_cons]
      exact congrArg _ (funext (ih (place.next c)))

/-- The state after a character of a JSON text, which has no backslash outside its
strings and no control character in them. -/
def StringState.strictNext (state : StringState) (c : Char) : Option StringState :=
  if state = .outside then if c = '\\' then none else some (state.next c)
  else if c.val ≤ 0x1F then none else some (state.next c)

open StringState (strictNext)

/-- The strings of the text begin and end in it and are strict. -/
def Clean (text : List Char) : Prop :=
  text.foldlM strictNext .outside = some .outside

theorem eq_next_of_strictNext {next : StringState} (step : state.strictNext c = some next) :
    next = state.next c := by
  unfold strictNext at step
  split_ifs at step <;> exact (Option.some.inj step).symm

/-- A control character in a string does not end it. -/
theorem next_control (control : c.val ≤ 0x1F) (inString : state ≠ .outside) :
    state.next c = .inside := by
  have notSlash : c ≠ '\\' := by
    rintro rfl
    exact absurd control (by decide)
  have notQuote : c ≠ '"' := by
    rintro rfl
    exact absurd control (by decide)
  cases state with
  | outside => exact absurd rfl inString
  | inside => simp [StringState.next, notSlash, notQuote]
  | escaped => rfl

theorem strictNext_plain (plain : isPlain c) : StringState.inside.strictNext c = some .inside := by
  have notControl : ¬c.val ≤ 0x1F := Nat.not_le.mpr plain.1
  simp [strictNext, StringState.next, notControl, plain.2.1, plain.2.2]

theorem strictNext_body (loose : LooseBody body) :
    body.foldlM strictNext .inside = some .inside := by
  induction loose with
  | nil => rfl
  | plain plain _ ih =>
    rw [foldlM_cons, strictNext_plain plain]
    exact ih
  | @escape c rest visible _ ih =>
    have notControl : ¬c.val ≤ 0x1F := Nat.not_le.mpr visible
    have letter : StringState.escaped.strictNext c = some .inside := by
      simp [strictNext, StringState.next, notControl]
    have afterSlash : (c :: rest).foldlM strictNext .escaped = some .inside := by
      rw [foldlM_cons, letter]
      exact ih
    exact afterSlash

theorem Clean.append {left right : List Char} (leftClean : Clean left)
    (rightClean : Clean right) : Clean (left ++ right) := by
  rw [Clean, foldlM_append, leftClean]
  exact rightClean

theorem clean_quoted (isBody : StringBody body) : Clean (quoted body) := by
  have inside : (body ++ ['"']).foldlM strictNext .inside = some .outside := by
    rw [foldlM_append, strictNext_body isBody.loose]
    rfl
  exact inside

theorem composes_clean : Composes Clean where
  nil := rfl
  append := Clean.append
  bare c isBare := by
    have other : ∀ c ∈ bareChars, Clean [c] := by
      unfold Clean
      decide
    exact other c isBare
  string := clean_quoted
  array clean := by
    have opener : Clean ['['] := rfl
    have closer : Clean [']'] := rfl
    exact opener.append (clean.append closer)
  object clean := by
    have opener : Clean ['{'] := rfl
    have closer : Clean ['}'] := rfl
    exact opener.append (clean.append closer)

theorem clean_of_isText (isText : IsText text) : Clean text :=
  composes_clean.of_derives isText

/-- A strict text has no control character in its strings. -/
theorem not_controlAt_of_strict {place : StringState} (inString : place ≠ .outside)
    (strict : text.foldlM strictNext state = some last) :
    ¬ControlAt place state text := by
  induction text generalizing state with
  | nil => exact fun found => found
  | cons c rest ih =>
    obtain ⟨middle, step, restStrict⟩ := Option.bind_eq_some_iff.mp strict
    have isNext := eq_next_of_strictNext step
    rintro (⟨rfl, control⟩ | inRest)
    · simp [strictNext, inString, control] at step
    · rw [isNext] at restStrict
      exact ih restStrict inRest

/-- Without control characters in its strings a text means itself. -/
theorem escapeInStrings_eq_self (none : ¬ControlAt .inside state text) :
    escapeInStrings state text = text := by
  induction text generalizing state with
  | nil => rfl
  | cons c rest ih =>
    rw [ControlAt, not_or] at none
    rw [escapeInStrings, if_neg none.1, ih none.2]

/-- An escape stands in a string as its control character does. -/
theorem strictNext_escapeControl (control : c.val ≤ 0x1F) (inString : state ≠ .outside) :
    (escapeControl c).foldlM strictNext state = some .inside := by
  obtain ⟨first, rest, equal, letters⟩ := exists_escapeLetters control
  have plain : ∀ letter ∈ escapeLetters, isPlain letter := by decide
  have tail : ∀ letters : List Char, (∀ letter ∈ letters, letter ∈ escapeLetters) →
      letters.foldlM strictNext .inside = some .inside := by
    intro letters areLetters
    induction letters with
    | nil => rfl
    | cons letter rest ih =>
      obtain ⟨isLetter, restLetters⟩ := forall_mem_cons.mp areLetters
      rw [foldlM_cons, strictNext_plain (plain letter isLetter)]
      exact ih restLetters
  obtain ⟨isFirst, restLetters⟩ := forall_mem_cons.mp letters
  rw [equal]
  cases state with
  | outside => exact absurd rfl inString
  | inside =>
    have notControl : ¬first.val ≤ 0x1F := Nat.not_le.mpr (plain first isFirst).1
    have letter : StringState.escaped.strictNext first = some .inside := by
      simp [strictNext, StringState.next, notControl]
    have afterSlash : (first :: rest).foldlM strictNext .escaped = some .inside := by
      rw [foldlM_cons, letter]
      exact tail rest restLetters
    exact afterSlash
  | escaped => exact tail (first :: rest) letters

/-- When no control character stands outside the strings, all that are escaped stand in
them. -/
theorem escapeAll_eq_escapeInStrings
    (strict : (escapeInStrings state text).foldlM strictNext state = some last)
    (none : ¬ControlAt .outside state text) : escapeAll text = escapeInStrings state text := by
  induction text generalizing state with
  | nil => rfl
  | cons c rest ih =>
    rw [ControlAt, not_or] at none
    have unfold : escapeAll (c :: rest) =
        (if c.val ≤ 0x1F then escapeControl c else [c]) ++ escapeAll rest := rfl
    by_cases control : c.val ≤ 0x1F
    · cases state with
      | outside => exact absurd ⟨rfl, control⟩ none.1
      | inside =>
        rw [escapeInStrings, if_pos ⟨rfl, control⟩] at strict ⊢
        rw [foldlM_append, strictNext_escapeControl control (by decide)] at strict
        rw [next_control control (by decide)] at none
        rw [unfold, if_pos control, ih strict none.2]
      | escaped =>
        rw [escapeInStrings] at strict
        simp [strictNext, control] at strict
    · have kept : escapeInStrings state (c :: rest) =
          c :: escapeInStrings (state.next c) rest := by
        rw [escapeInStrings, if_neg fun isRaw => control isRaw.2]
      rw [kept] at strict
      obtain ⟨middle, step, restStrict⟩ := Option.bind_eq_some_iff.mp strict
      have isNext := eq_next_of_strictNext step
      rw [isNext] at restStrict
      rw [unfold, if_neg control, kept, ih restStrict none.2]
      rfl

/-- An escape outside the strings is no JSON. -/
theorem strictNext_escapeAll (found : ControlAt .outside state text) :
    (escapeAll text).foldlM strictNext state = none := by
  induction text generalizing state with
  | nil => exact found.elim
  | cons c rest ih =>
    have unfold : escapeAll (c :: rest) =
        (if c.val ≤ 0x1F then escapeControl c else [c]) ++ escapeAll rest := rfl
    rw [unfold]
    by_cases control : c.val ≤ 0x1F
    · rw [if_pos control, foldlM_append]
      by_cases isOutside : state = .outside
      · obtain ⟨tail, equal⟩ := exists_escapeControl c
        rw [equal, isOutside]
        rfl
      · rw [strictNext_escapeControl control isOutside]
        rcases found with ⟨rfl, -⟩ | inRest
        · exact absurd rfl isOutside
        · rw [next_control control isOutside] at inRest
          exact ih inRest
    · rw [if_neg control, singleton_append, foldlM_cons]
      rcases found with ⟨-, isControl⟩ | inRest
      · exact absurd isControl control
      · cases step : state.strictNext c with
        | none => rfl
        | some middle =>
          rw [eq_next_of_strictNext step]
          exact ih inRest

section Repairing

variable {host : Host} (sound : ParsesTextsOnly host)

include sound

variable {text : String} {value : Value}

/-- A text with raw control characters in its strings and with control characters
between its tokens is not parsed. -/
theorem safelyParseJson_of_both (meant : host.fromStr (meantText text) = some value)
    (inString : ControlAt .inside .outside text.toList)
    (between : ControlAt .outside .outside text.toList) : safelyParseJson host text = none := by
  have scanned : text.toList.foldlM ScanState.scan (outsideAt []) = some (outsideAt []) := by
    have isText := sound _ _ meant
    rw [meantText, String.toList_ofList] at isText
    rw [← scan_escapeInStrings .outside text.toList]
    exact (balanced_of_isText isText).whole []
  have notText : host.fromStr text = none := by
    apply Option.eq_none_iff_forall_ne_some.mpr
    intro other parses
    have strict := clean_of_isText (sound text other parses)
    exact not_controlAt_of_strict (by decide) strict inString
  have notEscaped : host.fromStr (jsonEscapeControlCharsInString text) = none := by
    apply Option.eq_none_iff_forall_ne_some.mpr
    intro other parses
    have strict := clean_of_isText (sound _ other parses)
    rw [jsonEscapeControlCharsInString, String.toList_ofList] at strict
    exact absurd (strict.symm.trans (strictNext_escapeAll between)) (by simp)
  have escapedScanned : (jsonEscapeControlCharsInString text).toList.foldlM ScanState.scan
      (outsideAt []) = some (outsideAt []) := by
    rw [jsonEscapeControlCharsInString, String.toList_ofList]
    exact (scan_escapeAll text.toList (outsideAt [])).trans scanned
  have repaired := repairTruncatedJson_of_scan scanned
  have escapedRepaired := repairTruncatedJson_of_scan escapedScanned
  rw [safelyParseJson]
  simp only [repaired, notText, notEscaped, escapedRepaired]

/-- A text with raw control characters in its strings is parsed as it is meant when no
control character stands between its tokens. -/
theorem safelyParseJson_of_none_between (meant : host.fromStr (meantText text) = some value)
    (inString : ControlAt .inside .outside text.toList)
    (none : ¬ControlAt .outside .outside text.toList) : safelyParseJson host text = some value := by
  have isText := sound _ _ meant
  rw [meantText, String.toList_ofList] at isText
  have scanned : text.toList.foldlM ScanState.scan (outsideAt []) = some (outsideAt []) := by
    rw [← scan_escapeInStrings .outside text.toList]
    exact (balanced_of_isText isText).whole []
  have notText : host.fromStr text = Option.none := by
    apply Option.eq_none_iff_forall_ne_some.mpr
    intro other parses
    have strict := clean_of_isText (sound text other parses)
    exact not_controlAt_of_strict (by decide) strict inString
  have escaped : jsonEscapeControlCharsInString text = meantText text :=
    congrArg String.ofList (escapeAll_eq_escapeInStrings (clean_of_isText isText) none)
  have repaired := repairTruncatedJson_of_scan scanned
  rw [safelyParseJson]
  simp only [repaired, notText, escaped, meant]

/-- A document that is meant by a text is parsed from it exactly when control
characters stand only in strings, or only between tokens; and a text that is JSON is
parsed as it stands. -/
theorem safelyParseJson_meant_iff :
    (∀ text value, host.fromStr text = some value → safelyParseJson host text = some value) ∧
    ∀ text value, host.fromStr (meantText text) = some value →
      (safelyParseJson host text = some value ↔
        ¬ControlAt .inside .outside text.toList ∨ ¬ControlAt .outside .outside text.toList) := by
  constructor
  · intro text value parses
    simp only [safelyParseJson, parses]
  · intro text value meant
    by_cases inString : ControlAt .inside .outside text.toList
    · by_cases between : ControlAt .outside .outside text.toList
      · rw [safelyParseJson_of_both sound meant inString between]
        simp [inString, between]
      · rw [safelyParseJson_of_none_between sound meant inString between]
        simp [between]
    · have same : meantText text = text := by
        rw [meantText, escapeInStrings_eq_self inString, String.ofList_toList]
      rw [same] at meant
      simp [safelyParseJson, meant, inString]

end Repairing

/-- An object with a line break behind its brace and one in its string. -/
def brokenLines : String :=
  "\x7b\n\"a\":\"x\ny\"\x7d"

def brokenLinesValue : Value :=
  .object [("a", .string "x\ny")]

/-- The parser on the texts that are JSON. -/
def brokenLinesHost : Host where
  nfc := id
  fromStr := fun text =>
    if text = "\x7b\n\"a\":\"x\\ny\"\x7d" then some brokenLinesValue
    else if text = "\"x\\n\"" then some (.string "x\n") else none
  toJsonText := fun _ => ""
  notObject := fun _ => none

theorem parsesTextsOnly_brokenLinesHost : ParsesTextsOnly brokenLinesHost := by
  have key : StringBody ['a'] := .plain (by decide) .nil
  have body : ∀ rest, StringBody rest → StringBody ('x' :: '\\' :: 'n' :: rest) :=
    fun rest isRest => .plain (by decide) (.escape (by decide) isRest)
  have noSpaces : Spaces [] := forall_mem_nil _
  have lineBreak : Spaces ['\n'] := forall_mem_singleton.mpr (by decide)
  have element : Derives .element ([] ++ (quoted ['x', '\\', 'n', 'y'] ++ [])) :=
    .element noSpaces (.string (body _ (.plain (by decide) .nil))) noSpaces
  have member : Derives .members (['\n'] ++ (quoted ['a'] ++ ([] ++ ':' :: _))) :=
    .lastMember (.member lineBreak key noSpaces element)
  intro text value parses
  simp only [brokenLinesHost] at parses
  split_ifs at parses with isObject isString
  · rw [isObject]
    exact .element noSpaces (.object member) noSpaces
  · rw [isString]
    exact .element noSpaces (.string (body _ .nil)) noSpaces

theorem safelyParseJson_quoted_line :
    safelyParseJson brokenLinesHost "\"x\n\"" = some (.string "x\n") := by
  have iff := (safelyParseJson_meant_iff parsesTextsOnly_brokenLinesHost).2 "\"x\n\""
    (.string "x\n") rfl
  exact iff.mpr (Or.inr (by simp [ControlAt, StringState.next]))

/-- The object is meant by the text and not parsed from it. -/
theorem not_safelyParseJson_brokenLines :
    brokenLinesHost.fromStr (meantText brokenLines) = some brokenLinesValue ∧
      safelyParseJson brokenLinesHost brokenLines = none := by
  constructor
  · rfl
  · rfl

end Obelus.Formats
