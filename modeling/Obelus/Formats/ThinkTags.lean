import Mathlib.Data.List.TakeWhile
import Obelus.Data.JsonText
import Obelus.Data.Splits
import Obelus.Meetings.Validation

/-!
# Think tags

The parser of a complete think tag at the front of a text, and the test for a
text that may still become one.  A text that is neither a tag nor held back stays
so when more text comes, unless it ends where the two disagree: after the angle
bracket, after the slash of a closing tag, or behind the slash of a tag that is
not closed yet.
-/

namespace Obelus.Formats

open Obelus.Data.ListDecide List
open Meetings.Validation (isWhitespace)

inductive ThinkTag
  | opening
  | closing
  | selfClosing
  deriving DecidableEq

def isAsciiAlphabetic (c : Char) : Bool :=
  ('a' ≤ c && c ≤ 'z') || ('A' ≤ c && c ≤ 'Z')

def isAsciiWhitespace (c : Char) : Bool :=
  [' ', '\t', '\n', '\u000C', '\r'].contains c

/-- The name of the tag, in any case. -/
def isThink (name : List Char) : Bool :=
  name.map Char.toLower == "think".toList || name.map Char.toLower == "thinking".toList

def isQuote (c : Char) : Bool :=
  c == '"' || c == '\''

/-- The loop over the attributes of an opening tag.  The text behind the tag stands
for the index of its end. -/
def scanAttributes (quote lastNonWs : Option Char) : List Char → Option (ThinkTag × List Char)
  | [] => none
  | c :: rest =>
    match quote with
    | some quoteChar =>
      scanAttributes (if c = quoteChar then none else some quoteChar) lastNonWs rest
    | none =>
      if isQuote c then scanAttributes (some c) (some c) rest
      else if c = '>' then
        some (if lastNonWs = some '/' then .selfClosing else .opening, rest)
      else if isAsciiWhitespace c then scanAttributes none lastNonWs rest
      else scanAttributes none (some c) rest

/-- A boundary of a tag stands immediately after the name. -/
def isTagBoundary (c : Char) : Bool :=
  c == '>' || c == '/' || isAsciiWhitespace c

def parseOpenTag (rest : List Char) : Option (ThinkTag × List Char) :=
  let attributes := rest.dropWhile isAsciiAlphabetic
  if isThink (rest.takeWhile isAsciiAlphabetic) && attributes.head?.any isTagBoundary then
    scanAttributes none none attributes
  else none

def parseCloseTag (rest : List Char) : Option (ThinkTag × List Char) :=
  let tail := (rest.dropWhile isAsciiAlphabetic).dropWhile isAsciiWhitespace
  if isThink (rest.takeWhile isAsciiAlphabetic) && tail.head? == some '>' then
    some (.closing, tail.tail)
  else none

/-- `parse_think_tag` of the text from the start of the tag. -/
def parseThinkTag : List Char → Option (ThinkTag × List Char)
  | '<' :: '/' :: rest => parseCloseTag rest
  | '<' :: rest => parseOpenTag rest
  | _ => none

def containsUnquotedGtFrom (quote : Option Char) : List Char → Bool
  | [] => false
  | c :: rest =>
    match quote with
    | some quoteChar =>
      containsUnquotedGtFrom (if c = quoteChar then none else some quoteChar) rest
    | none =>
      if isQuote c then containsUnquotedGtFrom (some c) rest
      else c == '>' || containsUnquotedGtFrom none rest

def containsUnquotedGt (text : List Char) : Bool :=
  containsUnquotedGtFrom none text

/-- The letter of a pattern in any case; the sign for kelvin is a letter k. -/
def foldsTo (letter c : Char) : Bool :=
  c == letter || c == letter.toUpper || (letter == 'k' && c == '\u212A')

/-- The text behind the letters that it has in common with the pattern. -/
def afterCommon : List Char → List Char → List Char
  | letter :: pattern, c :: text =>
    if foldsTo letter c then afterCommon pattern text else c :: text
  | _, text => text

/-- The text behind the first letters of the name, of which there is at least one. -/
def afterLetters : List Char → Option (List Char)
  | c :: rest => if foldsTo 't' c then some (afterCommon "hinking".toList rest) else none
  | [] => none

/-- What may stand behind the letters of a tag that is not complete. -/
def opensTail : List Char → Bool
  | [] => true
  | c :: more => isWhitespace c || (c == '/' && more.isEmpty)

/-- `OPEN_RE` behind the angle bracket. -/
def matchesOpen (rest : List Char) : Bool :=
  (afterLetters rest).any opensTail

/-- `CLOSE_RE` behind the angle bracket. -/
def matchesClose : List Char → Bool
  | '/' :: rest => (afterLetters rest).any fun tail => tail.all isWhitespace
  | _ => false

def isPossiblePartialThinkTag (suffix : List Char) : Bool :=
  match suffix with
  | '<' :: rest => !containsUnquotedGt suffix && (matchesOpen rest || matchesClose rest)
  | _ => false

/-! ## Attributes -/

theorem containsUnquotedGtFrom_none (c : Char) (rest : List Char) :
    containsUnquotedGtFrom none (c :: rest) =
      if isQuote c then containsUnquotedGtFrom (some c) rest
      else c == '>' || containsUnquotedGtFrom none rest := rfl

theorem scanAttributes_none (lastNonWs : Option Char) (c : Char) (rest : List Char) :
    scanAttributes none lastNonWs (c :: rest) =
      if isQuote c then scanAttributes (some c) (some c) rest
      else if c = '>' then some (if lastNonWs = some '/' then .selfClosing else .opening, rest)
      else if isAsciiWhitespace c then scanAttributes none lastNonWs rest
      else scanAttributes none (some c) rest := rfl

variable {quote : Option Char} {text after name rest tail more front : List Char} {kind : ThinkTag}
  {c : Char}

theorem containsUnquotedGtFrom_append (contains : containsUnquotedGtFrom quote text = true)
    (more : List Char) : containsUnquotedGtFrom quote (text ++ more) = true := by
  induction text generalizing quote with
  | nil => cases contains
  | cons c rest ih =>
    cases quote with
    | some quoteChar => exact ih contains
    | none =>
      rw [containsUnquotedGtFrom_none] at contains
      rw [cons_append, containsUnquotedGtFrom_none]
      split at contains
      · next quoted =>
        rw [if_pos quoted]
        exact ih contains
      · next bare =>
        rw [if_neg bare]
        rcases Bool.or_eq_true_iff.mp contains with isGt | inRest
        · rw [isGt, Bool.true_or]
        · rw [ih inRest, Bool.or_true]

/-- The attributes end exactly at an angle bracket outside quotes. -/
theorem scanAttributes_isSome (quote lastNonWs : Option Char) (text : List Char) :
    (scanAttributes quote lastNonWs text).isSome = containsUnquotedGtFrom quote text := by
  induction text generalizing quote lastNonWs with
  | nil => cases quote <;> rfl
  | cons c rest ih =>
    cases quote with
    | some quoteChar => exact ih _ _
    | none =>
      rw [scanAttributes_none, containsUnquotedGtFrom_none]
      split
      · exact ih _ _
      · by_cases isGt : c = '>'
        · simp [isGt]
        · rw [if_neg isGt, beq_eq_false_iff_ne.mpr isGt]
          split <;> exact ih _ _

/-- The text behind the end does not matter, and the attributes are what stands in
front of it. -/
theorem exists_of_scanAttributes {lastNonWs : Option Char}
    (scanned : scanAttributes quote lastNonWs text = some (kind, after)) :
    ∃ attributes, text = attributes ++ after ∧
      ∀ more, scanAttributes quote lastNonWs (attributes ++ more) = some (kind, more) := by
  induction text generalizing quote lastNonWs with
  | nil => cases quote <;> cases scanned
  | cons c rest ih =>
    have step : ∀ (nextQuote nextNonWs : Option Char),
        (∀ text, scanAttributes quote lastNonWs (c :: text) =
          scanAttributes nextQuote nextNonWs text) →
        ∃ attributes, c :: rest = attributes ++ after ∧
          ∀ more, scanAttributes quote lastNonWs (attributes ++ more) = some (kind, more) := by
      intro nextQuote nextNonWs same
      obtain ⟨attributes, rfl, found⟩ := ih ((same rest).symm.trans scanned)
      refine ⟨c :: attributes, rfl, ?_⟩
      intro more
      rw [cons_append, same]
      exact found more
    cases quote with
    | some quoteChar => exact step _ _ fun _ => rfl
    | none =>
      by_cases quoted : isQuote c
      · apply step (some c) (some c)
        intro text
        rw [scanAttributes_none, if_pos quoted]
      · by_cases isGt : c = '>'
        · rw [scanAttributes_none, if_neg quoted, if_pos isGt] at scanned
          cases scanned
          refine ⟨[c], rfl, ?_⟩
          intro more
          rw [singleton_append, scanAttributes_none, if_neg quoted, if_pos isGt]
        · apply step none (if isAsciiWhitespace c then lastNonWs else some c)
          intro text
          rw [scanAttributes_none, if_neg quoted, if_neg isGt]
          split <;> rfl

/-! ## Tags -/

/-- A tag at the front of a text, its kind, and the text behind it. -/
inductive TagAt : List Char → ThinkTag → List Char → Prop
  | closing {name spaces after : List Char} (letters : ∀ c ∈ name, isAsciiAlphabetic c = true)
      (isName : isThink name = true) (areSpaces : ∀ c ∈ spaces, isAsciiWhitespace c = true) :
      TagAt ('<' :: '/' :: (name ++ (spaces ++ '>' :: after))) .closing after
  | opening {name rest after : List Char} {c : Char} {kind : ThinkTag}
      (letters : ∀ c ∈ name, isAsciiAlphabetic c = true) (isName : isThink name = true)
      (boundary : isTagBoundary c = true)
      (scanned : scanAttributes none none (c :: rest) = some (kind, after)) :
      TagAt ('<' :: (name ++ c :: rest)) kind after

theorem isTagBoundary_cases (boundary : isTagBoundary c = true) :
    c = '>' ∨ c = '/' ∨ isAsciiWhitespace c = true := by
  simpa [isTagBoundary, or_assoc] using boundary

theorem mem_of_isAsciiWhitespace (white : isAsciiWhitespace c = true) :
    c ∈ [' ', '\t', '\n', '\u000C', '\r'] :=
  contains_iff_mem.mp white

theorem not_letter_of_white (white : isAsciiWhitespace c = true) : isAsciiAlphabetic c = false := by
  have all : ∀ c ∈ [' ', '\t', '\n', '\u000C', '\r'], isAsciiAlphabetic c = false := by decide
  exact all c (mem_of_isAsciiWhitespace white)

theorem not_letter_of_boundary (boundary : isTagBoundary c = true) :
    isAsciiAlphabetic c = false := by
  rcases isTagBoundary_cases boundary with rfl | rfl | white
  · decide
  · decide
  · exact not_letter_of_white white

theorem takeWhile_letters (letters : ∀ c ∈ name, isAsciiAlphabetic c = true)
    (notLetter : ∀ c ∈ rest.head?, isAsciiAlphabetic c = false) :
    (name ++ rest).takeWhile isAsciiAlphabetic = name ∧
      (name ++ rest).dropWhile isAsciiAlphabetic = rest := by
  rw [takeWhile_append_of_pos letters, dropWhile_append_of_pos letters]
  cases rest with
  | nil => simp
  | cons c rest =>
    have stop := notLetter c rfl
    rw [takeWhile_cons_of_neg (by simp [stop]), dropWhile_cons_of_neg (by simp [stop])]
    simp

theorem parseThinkTag_of_not_slash (notSlash : c ≠ '/') (rest : List Char) :
    parseThinkTag ('<' :: c :: rest) = parseOpenTag (c :: rest) := by
  unfold parseThinkTag
  split
  · next equal => exact absurd (cons.inj (cons.inj equal).2).1 notSlash
  · next equal => rw [(cons.inj equal).2]
  · next other => exact absurd rfl (other _)

theorem exists_cons_of_isThink (isName : isThink name = true) : ∃ c rest, name = c :: rest := by
  cases name with
  | nil => exact absurd isName (by decide)
  | cons c rest => exact ⟨c, rest, rfl⟩

theorem TagAt.parses (tag : TagAt text kind after) : parseThinkTag text = some (kind, after) := by
  cases tag with
  | @closing name spaces after letters isName areSpaces =>
    have notLetter : ∀ c ∈ (spaces ++ '>' :: after).head?, isAsciiAlphabetic c = false := by
      intro c isHead
      cases spaces with
      | nil =>
        cases isHead
        decide
      | cons space others =>
        obtain rfl : space = c := Option.some.inj isHead
        exact not_letter_of_white (areSpaces space mem_cons_self)
    obtain ⟨taken, dropped⟩ := takeWhile_letters letters notLetter
    have tail : (spaces ++ '>' :: after).dropWhile isAsciiWhitespace = '>' :: after := by
      rw [dropWhile_append_of_pos areSpaces]
      exact dropWhile_cons_of_neg (by decide)
    simp [parseThinkTag, parseCloseTag, taken, dropped, tail, isName]
  | @opening name rest after c kind letters isName boundary scanned =>
    have notLetter : ∀ first ∈ (c :: rest).head?, isAsciiAlphabetic first = false := by
      intro first isHead
      cases isHead
      exact not_letter_of_boundary boundary
    obtain ⟨taken, dropped⟩ := takeWhile_letters letters notLetter
    have parsed : parseOpenTag (name ++ c :: rest) = some (kind, after) := by
      simp [parseOpenTag, taken, dropped, isName, boundary, scanned]
    obtain ⟨first, others, rfl⟩ := exists_cons_of_isThink isName
    have notSlash : first ≠ '/' := by
      rintro rfl
      exact absurd (letters '/' mem_cons_self) (by decide)
    rw [cons_append, parseThinkTag_of_not_slash notSlash]
    exact parsed

theorem tagAt_of_parses (parses : parseThinkTag text = some (kind, after)) :
    TagAt text kind after := by
  unfold parseThinkTag at parses
  split at parses
  · next rest =>
    simp only [parseCloseTag, Bool.and_eq_true, beq_iff_eq] at parses
    split at parses
    · next found =>
      obtain ⟨isName, isGt⟩ := found
      cases parses
      have parts : rest = rest.takeWhile isAsciiAlphabetic ++
          ((rest.dropWhile isAsciiAlphabetic).takeWhile isAsciiWhitespace ++
            '>' :: ((rest.dropWhile isAsciiAlphabetic).dropWhile isAsciiWhitespace).tail) := by
        rw [← eq_cons_of_mem_head? isGt, takeWhile_append_dropWhile, takeWhile_append_dropWhile]
      have tag := @TagAt.closing (rest.takeWhile isAsciiAlphabetic)
        ((rest.dropWhile isAsciiAlphabetic).takeWhile isAsciiWhitespace)
        ((rest.dropWhile isAsciiAlphabetic).dropWhile isAsciiWhitespace).tail
        (fun c => mem_takeWhile_imp) isName (fun c => mem_takeWhile_imp)
      rwa [← parts] at tag
    · cases parses
  · next rest notSlash =>
    simp only [parseOpenTag, Bool.and_eq_true] at parses
    split at parses
    · next found =>
      obtain ⟨isName, hasBoundary⟩ := found
      cases isHead : (rest.dropWhile isAsciiAlphabetic).head? with
      | none =>
        rw [isHead] at hasBoundary
        cases hasBoundary
      | some c =>
        rw [isHead] at hasBoundary
        have parts : rest = rest.takeWhile isAsciiAlphabetic ++
            c :: (rest.dropWhile isAsciiAlphabetic).tail := by
          rw [← eq_cons_of_mem_head? isHead, takeWhile_append_dropWhile]
        rw [eq_cons_of_mem_head? isHead] at parses
        have tag := TagAt.opening (fun c => mem_takeWhile_imp) isName hasBoundary parses
        rwa [← parts] at tag
    · cases parses
  · cases parses

/-- A tag is parsed whatever stands behind it. -/
theorem exists_of_parses (parses : parseThinkTag text = some (kind, after)) :
    ∃ tag, tag ≠ [] ∧ text = tag ++ after ∧
      ∀ more, parseThinkTag (tag ++ more) = some (kind, more) := by
  cases tagAt_of_parses parses with
  | @closing name spaces after letters isName areSpaces =>
    refine ⟨'<' :: '/' :: (name ++ (spaces ++ ['>'])), cons_ne_nil _ _, by simp, ?_⟩
    intro more
    have tag := @TagAt.closing name spaces more letters isName areSpaces
    simpa using tag.parses
  | @opening name rest after c kind letters isName boundary scanned =>
    obtain ⟨attributes, equal, found⟩ := exists_of_scanAttributes scanned
    cases attributes with
    | nil => exact nomatch found []
    | cons first attributes =>
      obtain ⟨rfl, rfl⟩ := cons.inj equal
      refine ⟨'<' :: (name ++ c :: attributes), cons_ne_nil _ _, by simp, ?_⟩
      intro more
      have tag := TagAt.opening letters isName boundary (found more)
      simpa using tag.parses

theorem parses_append (parses : parseThinkTag text = some (kind, after)) (more : List Char) :
    parseThinkTag (text ++ more) = some (kind, after ++ more) := by
  obtain ⟨tag, -, rfl, found⟩ := exists_of_parses parses
  rw [append_assoc]
  exact found (after ++ more)

/-! ## Beginnings of tags -/

theorem afterCommon_nil (pattern : List Char) : afterCommon pattern [] = [] := by
  cases pattern <;> rfl

theorem afterCommon_append (pattern text more : List Char) : afterCommon pattern text = [] ∨
      afterCommon pattern (text ++ more) = afterCommon pattern text ++ more := by
  induction text generalizing pattern with
  | nil => exact Or.inl (afterCommon_nil pattern)
  | cons c rest ih =>
    cases pattern with
    | nil => exact Or.inr rfl
    | cons letter pattern =>
      rw [cons_append, afterCommon, afterCommon]
      split
      · exact ih pattern
      · exact Or.inr rfl

/-- More text changes what is behind the letters only when nothing is. -/
theorem afterLetters_append (nonempty : rest ≠ []) (more : List Char) :
    afterLetters rest = some [] ∨
      afterLetters (rest ++ more) = (afterLetters rest).map (· ++ more) := by
  cases rest with
  | nil => exact absurd rfl nonempty
  | cons c rest =>
    rw [cons_append, afterLetters, afterLetters]
    split
    · rcases afterCommon_append "hinking".toList rest more with isNil | equal
      · exact Or.inl (congrArg some isNil)
      · exact Or.inr (congrArg some equal)
    · exact Or.inr rfl

theorem opensTail_of_append (opens : opensTail (tail ++ more) = true) : opensTail tail = true := by
  cases tail with
  | nil => rfl
  | cons c tail =>
    simp only [cons_append, opensTail, Bool.or_eq_true, Bool.and_eq_true,
      List.isEmpty_iff, append_eq_nil_iff] at opens ⊢
    exact opens.imp_right fun slash => ⟨slash.1, slash.2.1⟩

theorem matchesOpen_of_append (nonempty : rest ≠ []) (isOpen : matchesOpen (rest ++ more) = true) :
    matchesOpen rest = true := by
  unfold matchesOpen at isOpen ⊢
  rcases afterLetters_append nonempty more with isNil | equal
  · rw [isNil]
    rfl
  · rw [equal] at isOpen
    cases letters : afterLetters rest with
    | none =>
      rw [letters] at isOpen
      cases isOpen
    | some tail =>
      rw [letters] at isOpen
      exact opensTail_of_append isOpen

theorem matchesClose_of_append (nonempty : rest ≠ []) (notSlash : rest ≠ ['/'])
    (isClose : matchesClose (rest ++ more) = true) : matchesClose rest = true := by
  cases rest with
  | nil => exact absurd rfl nonempty
  | cons c rest =>
    by_cases isSlash : c = '/'
    · subst isSlash
      have restNonempty : rest ≠ [] := by
        rintro rfl
        exact notSlash rfl
      rw [cons_append, matchesClose] at isClose
      rw [matchesClose]
      rcases afterLetters_append restNonempty more with isNil | equal
      · rw [isNil]
        rfl
      · rw [equal] at isClose
        cases letters : afterLetters rest with
        | none =>
          rw [letters] at isClose
          cases isClose
        | some tail =>
          rw [letters] at isClose
          have all : (tail ++ more).all isWhitespace = true := isClose
          rw [all_append, Bool.and_eq_true] at all
          exact all.1
    · unfold matchesClose at isClose
      split at isClose
      · next equal => exact absurd (cons.inj equal).1 isSlash
      · cases isClose

/-- A letter in lower case is a letter in any case. -/
theorem foldsTo_of_toLower {letter : Char} (isLetter : letter ∈ "thinking".toList)
    (lower : c.toLower = letter) : foldsTo letter c = true := by
  have codes : c.toNat = letter.toNat ∨ c.toNat + 32 = letter.toNat := by
    rw [← lower, Data.toNat_toLower]
    split <;> omega
  rcases codes with same | upper
  · rw [Char.toNat_inj.mp same]
    simp [foldsTo]
  · have upperCase : ∀ letter ∈ "thinking".toList, letter.toUpper.toNat + 32 = letter.toNat := by
      decide
    have equal : c = letter.toUpper := by
      apply Char.toNat_inj.mp
      have other := upperCase letter isLetter
      omega
    simp [foldsTo, equal]

/-- The letters of a name are behind none of them. -/
theorem afterLetters_name {pattern : List Char} (nonempty : name ≠ [])
    (letters : name.map Char.toLower ++ pattern = "thinking".toList) (more : List Char) :
    afterLetters (name ++ more) = some (afterCommon pattern more) := by
  have common : ∀ (name front : List Char), (∀ c ∈ name, c.toLower ∈ "thinking".toList) →
      front = name.map Char.toLower ++ pattern →
        afterCommon front (name ++ more) = afterCommon pattern more := by
    intro name front areLetters frontEq
    subst frontEq
    induction name with
    | nil => rfl
    | cons c rest ih =>
      obtain ⟨isLetter, restLetters⟩ := forall_mem_cons.mp areLetters
      rw [map_cons, cons_append, cons_append, afterCommon, if_pos (foldsTo_of_toLower isLetter rfl)]
      exact ih restLetters
  have areLetters : ∀ c ∈ name, c.toLower ∈ "thinking".toList := by
    intro c member
    rw [← letters]
    exact mem_append_left _ (mem_map_of_mem member)
  cases name with
  | nil => exact absurd rfl nonempty
  | cons c rest =>
    obtain ⟨isT, restLetters⟩ : c.toLower = 't' ∧
        rest.map Char.toLower ++ pattern = "hinking".toList := cons.inj letters
    have isFirst : foldsTo 't' c = true := foldsTo_of_toLower (by decide) isT
    rw [cons_append, afterLetters, if_pos isFirst]
    exact congrArg some (common rest _ (forall_mem_cons.mp areLetters).2 restLetters.symm)

/-- The name of a tag is the name of a longer one or all of it. -/
theorem exists_pattern (isName : isThink name = true) :
    name.map Char.toLower ++ ['i', 'n', 'g'] = "thinking".toList ∨
      name.map Char.toLower ++ [] = "thinking".toList := by
  rcases Bool.or_eq_true_iff.mp isName with short | long
  · left
    rw [beq_iff_eq.mp short]
    rfl
  · right
    rw [beq_iff_eq.mp long]
    rfl

/-! ## Where the parser and the test disagree -/

/-- The beginning of a tag that is not held back: the angle bracket, the slash of a
closing tag, and a slash with more behind it in a tag that is not closed. -/
inductive OpenEnd : List Char → Prop
  | bracket : OpenEnd ['<']
  | slash : OpenEnd ['<', '/']
  | attributes {name more : List Char} (isName : isThink name = true) (nonempty : more ≠ [])
      (notClosed : containsUnquotedGt ('<' :: (name ++ '/' :: more)) = false) :
      OpenEnd ('<' :: (name ++ '/' :: more))

/-- A character that neither quotes nor ends a tag. -/
def isInert (c : Char) : Prop :=
  isQuote c = false ∧ c ≠ '>'

theorem containsUnquotedGt_inert (inert : ∀ c ∈ front, isInert c) (rest : List Char) :
    containsUnquotedGt (front ++ rest) = containsUnquotedGt rest := by
  induction front with
  | nil => rfl
  | cons c front ih =>
    obtain ⟨⟨notQuote, notGt⟩, frontInert⟩ := forall_mem_cons.mp inert
    rw [cons_append, containsUnquotedGt, containsUnquotedGtFrom_none, if_neg (by simp [notQuote]),
      beq_eq_false_iff_ne.mpr notGt]
    exact ih frontInert

theorem isInert_of_letter (letter : isAsciiAlphabetic c = true) : isInert c := by
  have other : ∀ c ∈ ['"', '\'', '>'], isAsciiAlphabetic c = false := by decide
  have notOther : c ∉ ['"', '\'', '>'] := by
    intro member
    rw [other c member] at letter
    cases letter
  simp only [mem_cons, not_mem_nil, or_false, not_or] at notOther
  exact ⟨by simp [isQuote, notOther.1, notOther.2.1], notOther.2.2⟩

theorem isInert_of_white (white : isAsciiWhitespace c = true) : isInert c := by
  have inert : ∀ c ∈ [' ', '\t', '\n', '\u000C', '\r'], isQuote c = false ∧ c ≠ '>' := by decide
  exact inert c (mem_of_isAsciiWhitespace white)

theorem isWhitespace_of_ascii (white : isAsciiWhitespace c = true) : isWhitespace c = true := by
  have all : ∀ c ∈ [' ', '\t', '\n', '\u000C', '\r'], isWhitespace c = true := by decide
  exact all c (mem_of_isAsciiWhitespace white)

/-- The first letters of a name may become a tag. -/
theorem afterLetters_front {back : List Char} (nonempty : front ≠ [])
    (isName : isThink (front ++ back) = true) : afterLetters front = some [] := by
  rcases exists_pattern isName with letters | letters
  all_goals
    rw [map_append, append_assoc] at letters
    have found := afterLetters_name nonempty letters []
    rwa [append_nil, afterCommon_nil] at found

/-- What stands behind a name is not one of its letters. -/
theorem afterLetters_tail (isName : isThink name = true)
    (notLetter : ∀ c ∈ tail.head?, foldsTo 'i' c = false) :
    afterLetters (name ++ tail) = some tail := by
  obtain ⟨c, rest, rfl⟩ := exists_cons_of_isThink isName
  rcases exists_pattern isName with letters | letters
  · rw [afterLetters_name (cons_ne_nil c rest) letters]
    cases tail with
    | nil => rfl
    | cons first tail =>
      have other := notLetter first rfl
      exact congrArg some (if_neg (by rw [other]; exact Bool.false_ne_true))
  · rw [afterLetters_name (cons_ne_nil c rest) letters]
    rfl

theorem foldsTo_i_of_white (white : isAsciiWhitespace c = true) : foldsTo 'i' c = false := by
  have all : ∀ c ∈ [' ', '\t', '\n', '\u000C', '\r'], foldsTo 'i' c = false := by decide
  exact all c (mem_of_isAsciiWhitespace white)

theorem isPossiblePartial_of_matches (notClosed : containsUnquotedGt ('<' :: rest) = false)
    (isPossible : matchesOpen rest = true ∨ matchesClose rest = true) :
    isPossiblePartialThinkTag ('<' :: rest) = true := by
  simpa [isPossiblePartialThinkTag, notClosed] using isPossible

theorem isInert_bracket : isInert '<' := by
  unfold isInert
  decide

theorem isInert_slash : isInert '/' := by
  unfold isInert
  decide

theorem containsUnquotedGt_of_inert (inert : ∀ c ∈ text, isInert c) :
    containsUnquotedGt text = false := by
  have same := containsUnquotedGt_inert inert []
  rwa [append_nil] at same

/-- A closing tag that is cut off behind its slash is held back. -/
theorem isPossiblePartial_of_closing {spaces : List Char} (nonempty : rest ≠ [])
    (none : parseThinkTag ('<' :: '/' :: rest) = none)
    (equal : rest ++ more = name ++ (spaces ++ '>' :: after))
    (letters : ∀ c ∈ name, isAsciiAlphabetic c = true) (isName : isThink name = true)
    (areSpaces : ∀ c ∈ spaces, isAsciiWhitespace c = true) :
    isPossiblePartialThinkTag ('<' :: '/' :: rest) = true := by
  have held : (∀ c ∈ rest, isInert c) →
      (∃ tail, afterLetters rest = some tail ∧ ∀ c ∈ tail, isAsciiWhitespace c = true) →
        isPossiblePartialThinkTag ('<' :: '/' :: rest) = true := by
    rintro inert ⟨tail, behind, white⟩
    apply isPossiblePartial_of_matches
    · apply containsUnquotedGt_of_inert
      exact forall_mem_cons.mpr ⟨isInert_bracket, forall_mem_cons.mpr ⟨isInert_slash, inert⟩⟩
    · right
      rw [matchesClose, behind]
      exact all_eq_true.mpr fun c member => isWhitespace_of_ascii (white c member)
  rcases append_eq_append_iff.mp equal with ⟨back, rfl, -⟩ | ⟨behind, rfl, tailEq⟩
  · apply held
    · exact fun c member => isInert_of_letter (letters c (mem_append_left _ member))
    · exact ⟨[], afterLetters_front nonempty isName, forall_mem_nil _⟩
  · rcases append_eq_append_iff.mp tailEq with ⟨closed, rfl, restEq⟩ | ⟨back, rfl, -⟩
    · cases closed with
      | nil =>
        apply held
        · intro c member
          rw [append_nil] at member
          rcases mem_append.mp member with inName | inSpaces
          · exact isInert_of_letter (letters c inName)
          · exact isInert_of_white (areSpaces c inSpaces)
        · refine ⟨spaces, ?_, areSpaces⟩
          rw [append_nil]
          apply afterLetters_tail isName
          exact fun c isHead => foldsTo_i_of_white (areSpaces c (mem_of_head? isHead))
      | cons c closed =>
        obtain ⟨rfl, -⟩ := cons.inj restEq
        rw [(TagAt.closing letters isName areSpaces).parses] at none
        cases none
    · have white : ∀ c ∈ behind, isAsciiWhitespace c = true :=
        fun c member => areSpaces c (mem_append_left _ member)
      apply held
      · intro c member
        exact (mem_append.mp member).elim (fun inName => isInert_of_letter (letters c inName))
          fun inSpaces => isInert_of_white (white c inSpaces)
      · refine ⟨behind, ?_, white⟩
        apply afterLetters_tail isName
        exact fun c isHead => foldsTo_i_of_white (white c (mem_of_head? isHead))

/-- An opening tag that is cut off is held back, unless it ends openly. -/
theorem isPossiblePartial_of_opening (nonempty : rest ≠ [])
    (none : parseThinkTag ('<' :: rest) = none) (settled : ¬OpenEnd ('<' :: rest))
    (equal : rest ++ more = name ++ c :: tail) (letters : ∀ c ∈ name, isAsciiAlphabetic c = true)
    (isName : isThink name = true) (boundary : isTagBoundary c = true)
    (scanned : scanAttributes Option.none Option.none (c :: tail) = some (kind, after)) :
    isPossiblePartialThinkTag ('<' :: rest) = true := by
  have ofLetters : (∀ c ∈ rest, isAsciiAlphabetic c = true) → afterLetters rest = some [] →
      isPossiblePartialThinkTag ('<' :: rest) = true := by
    intro areLetters behind
    apply isPossiblePartial_of_matches
    · apply containsUnquotedGt_of_inert
      exact forall_mem_cons.mpr ⟨isInert_bracket, fun c member =>
        isInert_of_letter (areLetters c member)⟩
    · left
      rw [matchesOpen, behind]
      rfl
  rcases append_eq_append_iff.mp equal with ⟨back, rfl, -⟩ | ⟨behind, rfl, tailEq⟩
  · apply ofLetters
    · exact fun c member => letters c (mem_append_left _ member)
    · exact afterLetters_front nonempty isName
  · cases behind with
    | nil =>
      apply ofLetters
      · rwa [append_nil]
      · rw [append_nil]
        apply afterLetters_front _ (by rwa [append_nil])
        obtain ⟨first, others, rfl⟩ := exists_cons_of_isThink isName
        exact cons_ne_nil _ _
    | cons first behind =>
      obtain ⟨rfl, rfl⟩ := cons.inj tailEq
      have inert : ∀ c ∈ '<' :: name, isInert c :=
        forall_mem_cons.mpr ⟨isInert_bracket, fun c member => isInert_of_letter (letters c member)⟩
      have notClosed : containsUnquotedGt ('<' :: (name ++ c :: behind)) = false := by
        rw [← cons_append, containsUnquotedGt_inert inert, containsUnquotedGt,
          ← scanAttributes_isSome Option.none Option.none]
        cases found : scanAttributes Option.none Option.none (c :: behind) with
        | none => rfl
        | some result =>
          rw [(TagAt.opening letters isName boundary found).parses] at none
          cases none
      apply isPossiblePartial_of_matches notClosed
      left
      rcases isTagBoundary_cases boundary with rfl | rfl | white
      · rw [← cons_append, containsUnquotedGt_inert inert] at notClosed
        cases notClosed
      · by_cases isLast : behind = []
        · subst isLast
          rw [matchesOpen, afterLetters_tail isName (by rintro c isHead; cases isHead; decide)]
          rfl
        · exact absurd (.attributes isName isLast notClosed) settled
      · rw [matchesOpen, afterLetters_tail isName (by
          intro first isHead
          obtain rfl : c = first := Option.some.inj isHead
          exact foldsTo_i_of_white white)]
        simp [opensTail, isWhitespace_of_ascii white]

/-- A text that is no tag and not held back stays so, unless it ends openly. -/
theorem settled_append (none : parseThinkTag ('<' :: rest) = none)
    (notHeld : isPossiblePartialThinkTag ('<' :: rest) = false) (settled : ¬OpenEnd ('<' :: rest))
    (more : List Char) : parseThinkTag ('<' :: (rest ++ more)) = Option.none ∧
      isPossiblePartialThinkTag ('<' :: (rest ++ more)) = false := by
  have nonempty : rest ≠ [] := by
    rintro rfl
    exact settled .bracket
  have notSlash : rest ≠ ['/'] := by
    rintro rfl
    exact settled .slash
  constructor
  · apply Option.eq_none_iff_forall_ne_some.mpr
    rintro ⟨kind, after⟩ parses
    have contradiction : isPossiblePartialThinkTag ('<' :: rest) = true := by
      generalize whole : '<' :: (rest ++ more) = text at parses
      cases tagAt_of_parses parses with
      | @closing name spaces after letters isName areSpaces =>
        have equal := (cons.inj whole).2
        cases rest with
        | nil => exact absurd rfl nonempty
        | cons c rest =>
          obtain ⟨rfl, restEq⟩ := cons.inj equal
          apply isPossiblePartial_of_closing _ none restEq letters isName areSpaces
          rintro rfl
          exact notSlash rfl
      | @opening name tail after c kind letters isName boundary scanned =>
        exact isPossiblePartial_of_opening nonempty none settled (cons.inj whole).2 letters
          isName boundary scanned
    rw [contradiction] at notHeld
    cases notHeld
  · rw [Bool.eq_false_iff]
    intro held
    simp only [isPossiblePartialThinkTag, Bool.and_eq_true, Bool.not_eq_true',
      Bool.or_eq_true] at held
    have notClosed : containsUnquotedGt ('<' :: rest) = false := by
      rw [Bool.eq_false_iff]
      intro closed
      have stillClosed := containsUnquotedGtFrom_append closed more
      exact absurd (held.1.symm.trans stillClosed) (by simp)
    have isPossible : matchesOpen rest = true ∨ matchesClose rest = true :=
      held.2.imp (matchesOpen_of_append nonempty) (matchesClose_of_append nonempty notSlash)
    rw [isPossiblePartial_of_matches notClosed isPossible] at notHeld
    cases notHeld

example : parseThinkTag "<think data=\"a>b\">x".toList = some (.opening, ['x']) := by
  decide +kernel

end Obelus.Formats
