import Mathlib.Data.List.Basic

/-!
# Deciding along lists

Whether all elements of a list have a property, or one of them has, is decided along the
list, also for a type that is finite.
-/

namespace Obelus.Data.ListDecide

universe u

scoped instance (priority := 2000) decidableForallMem {α : Type u} (holds : α → Prop)
    [DecidablePred holds] (list : List α) : Decidable (∀ x ∈ list, holds x) :=
  List.decidableBAll holds list

end Obelus.Data.ListDecide

/-!
## JSON texts

The grammar of JSON texts over lists of characters, and the rule by which a
property of all JSON texts follows from the property of their tokens.
-/

namespace Obelus.Data.JsonText

open Obelus.Data.ListDecide List

/-- White space between tokens. -/
def spaceChars : List Char :=
  [' ', '\t', '\n', '\r']

def Spaces (text : List Char) : Prop :=
  ∀ c ∈ text, c ∈ spaceChars

/-- A character that stands for itself in a string. -/
def isPlain (c : Char) : Prop :=
  0x1F < c.val ∧ c ≠ '"' ∧ c ≠ '\\'

instance (c : Char) : Decidable (isPlain c) :=
  inferInstanceAs (Decidable (_ ∧ _))

def isHexDigit (c : Char) : Bool :=
  c.isDigit || ('a' ≤ c && c ≤ 'f') || ('A' ≤ c && c ≤ 'F')

/-- What stands between the quotes of a string. -/
inductive StringBody : List Char → Prop
  | nil : StringBody []
  | plain {c : Char} {rest : List Char} : isPlain c → StringBody rest → StringBody (c :: rest)
  | escape {c : Char} {rest : List Char} : c ∈ ['"', '\\', '/', 'b', 'f', 'n', 'r', 't'] →
      StringBody rest → StringBody ('\\' :: c :: rest)
  | unicode {a b c d : Char} {rest : List Char} :
      (∀ digit ∈ [a, b, c, d], isHexDigit digit = true) → StringBody rest →
      StringBody ('\\' :: 'u' :: a :: b :: c :: d :: rest)

/-- A looser body: what an escape stands for is not looked at. -/
inductive LooseBody : List Char → Prop
  | nil : LooseBody []
  | plain {c : Char} {rest : List Char} : isPlain c → LooseBody rest → LooseBody (c :: rest)
  | escape {c : Char} {rest : List Char} : 0x1F < c.val → LooseBody rest →
      LooseBody ('\\' :: c :: rest)

theorem isPlain_of_isHexDigit {c : Char} (isHex : isHexDigit c = true) : isPlain c := by
  have low : '0'.val ≤ c.val := by
    simp only [isHexDigit, Char.isDigit, Bool.or_eq_true, Bool.and_eq_true,
      decide_eq_true_eq] at isHex
    rcases isHex with (isDigit | isLower) | isUpper
    · exact isDigit.1
    · exact Nat.le_trans (by decide) isLower.1
    · exact Nat.le_trans (by decide) isUpper.1
  refine ⟨Nat.lt_of_lt_of_le (by decide) low, ?_, ?_⟩
  · rintro rfl
    exact absurd low (by decide)
  · rintro rfl
    exact absurd isHex (by decide)

theorem StringBody.loose {body : List Char} (isBody : StringBody body) : LooseBody body := by
  induction isBody with
  | nil => exact .nil
  | plain isPlain _ ih => exact .plain isPlain ih
  | escape isEscape _ ih =>
    have visible : ∀ c ∈ ['"', '\\', '/', 'b', 'f', 'n', 'r', 't'], 0x1F < c.val := by decide
    exact .escape (visible _ isEscape) ih
  | @unicode a b c d rest areHex _ ih =>
    have plain : ∀ digit ∈ [a, b, c, d], isPlain digit :=
      fun digit member => isPlain_of_isHexDigit (areHex digit member)
    exact .escape (by decide) (.plain (plain a (by simp)) (.plain (plain b (by simp))
      (.plain (plain c (by simp)) (.plain (plain d (by simp)) ih))))

def quoted (body : List Char) : List Char :=
  '"' :: (body ++ ['"'])

def digitChars : List Char :=
  ['0', '1', '2', '3', '4', '5', '6', '7', '8', '9']

def Digits (text : List Char) : Prop :=
  text ≠ [] ∧ ∀ c ∈ text, c ∈ digitChars

/-- The parts of a number. -/
structure NumberText (sign whole fraction exponent : List Char) : Prop where
  sign : sign = [] ∨ sign = ['-']
  whole : whole = ['0'] ∨ (Digits whole ∧ whole.head? ≠ some '0')
  fraction : fraction = [] ∨ ∃ digits, Digits digits ∧ fraction = '.' :: digits
  exponent : exponent = [] ∨ ∃ e ∈ ['e', 'E'], ∃ sign ∈ [[], ['+'], ['-']], ∃ digits,
    Digits digits ∧ exponent = e :: (sign ++ digits)

def literals : List (List Char) :=
  ["true".toList, "false".toList, "null".toList]

/-- The rules of the grammar.  An element is a value with white space around it. -/
inductive Rule
  | value
  | element
  | elements
  | member
  | members

inductive Derives : Rule → List Char → Prop
  | literal {text : List Char} : text ∈ literals → Derives .value text
  | number {sign whole fraction exponent : List Char} :
      NumberText sign whole fraction exponent →
      Derives .value (sign ++ (whole ++ (fraction ++ exponent)))
  | string {body : List Char} : StringBody body → Derives .value (quoted body)
  | emptyArray {spaces : List Char} : Spaces spaces → Derives .value ('[' :: (spaces ++ [']']))
  | array {inner : List Char} : Derives .elements inner →
      Derives .value ('[' :: (inner ++ [']']))
  | emptyObject {spaces : List Char} : Spaces spaces →
      Derives .value ('{' :: (spaces ++ ['}']))
  | object {inner : List Char} : Derives .members inner →
      Derives .value ('{' :: (inner ++ ['}']))
  | element {before value after : List Char} : Spaces before → Derives .value value →
      Spaces after → Derives .element (before ++ (value ++ after))
  | lastElement {element : List Char} : Derives .element element → Derives .elements element
  | elements {element rest : List Char} : Derives .element element → Derives .elements rest →
      Derives .elements (element ++ ',' :: rest)
  | member {before name after element : List Char} : Spaces before → StringBody name →
      Spaces after → Derives .element element →
      Derives .member (before ++ (quoted name ++ (after ++ ':' :: element)))
  | lastMember {member : List Char} : Derives .member member → Derives .members member
  | members {member rest : List Char} : Derives .member member → Derives .members rest →
      Derives .members (member ++ ',' :: rest)

/-- A complete text. -/
def IsText (text : List Char) : Prop :=
  Derives .element text

/-- The text of an object, without white space around it. -/
def IsObject (text : List Char) : Prop :=
  Derives .value text ∧ text.head? = some '{'

/-- The characters of a text outside its strings, without the brackets. -/
def bareChars : List Char :=
  spaceChars ++ digitChars ++
    [',', ':', '-', '+', '.', 'e', 'E', 't', 'r', 'u', 'f', 'a', 'l', 's', 'n']

/-- The property holds of the tokens and is kept when texts are put together. -/
structure Composes (holds : List Char → Prop) : Prop where
  nil : holds []
  append : ∀ {left right : List Char}, holds left → holds right → holds (left ++ right)
  bare : ∀ c ∈ bareChars, holds [c]
  string : ∀ {body : List Char}, StringBody body → holds (quoted body)
  array : ∀ {inner : List Char}, holds inner → holds ('[' :: (inner ++ [']']))
  object : ∀ {inner : List Char}, holds inner → holds ('{' :: (inner ++ ['}']))

namespace Composes

variable {holds : List Char → Prop}

section

variable (composes : Composes holds)
include composes

theorem cons {c : Char} {rest : List Char} (isBare : c ∈ bareChars) (restHolds : holds rest) :
    holds (c :: rest) :=
  composes.append (composes.bare c isBare) restHolds

theorem of_bare {text : List Char} (areBare : ∀ c ∈ text, c ∈ bareChars) : holds text := by
  induction text with
  | nil => exact composes.nil
  | cons c rest ih =>
    obtain ⟨isBare, restBare⟩ := forall_mem_cons.mp areBare
    exact composes.cons isBare (ih restBare)

theorem of_spaces {text : List Char} (spaces : Spaces text) : holds text := by
  apply composes.of_bare
  intro c member
  exact mem_append_left _ (mem_append_left _ (spaces c member))

theorem of_digits {text : List Char} (digits : ∀ c ∈ text, c ∈ digitChars) : holds text := by
  apply composes.of_bare
  intro c member
  exact mem_append_left _ (mem_append_right _ (digits c member))

theorem of_number {sign whole fraction exponent : List Char}
    (isNumber : NumberText sign whole fraction exponent) :
    holds (sign ++ (whole ++ (fraction ++ exponent))) := by
  have signHolds : holds sign := by
    rcases isNumber.sign with rfl | rfl
    · exact composes.nil
    · exact composes.bare _ (by decide)
  have wholeHolds : holds whole := by
    rcases isNumber.whole with rfl | ⟨digits, -⟩
    · exact composes.bare _ (by decide)
    · exact composes.of_digits digits.2
  have fractionHolds : holds fraction := by
    rcases isNumber.fraction with rfl | ⟨digits, areDigits, rfl⟩
    · exact composes.nil
    · exact composes.cons (by decide) (composes.of_digits areDigits.2)
  have exponentHolds : holds exponent := by
    rcases isNumber.exponent with rfl | ⟨e, isE, signs, isSign, digits, areDigits, rfl⟩
    · exact composes.nil
    · have eBare : ∀ e ∈ ['e', 'E'], e ∈ bareChars := by decide
      have signBare : ∀ sign ∈ [[], ['+'], ['-']], ∀ c ∈ sign, c ∈ bareChars := by decide
      apply composes.cons (eBare e isE)
      exact composes.append (composes.of_bare (signBare signs isSign))
        (composes.of_digits areDigits.2)
  exact composes.append signHolds
    (composes.append wholeHolds (composes.append fractionHolds exponentHolds))

/-- What holds of the tokens and is kept holds of every text. -/
theorem of_derives {rule : Rule} {text : List Char} (derives : Derives rule text) : holds text := by
  induction derives with
  | literal isLiteral =>
    have bare : ∀ text ∈ literals, ∀ c ∈ text, c ∈ bareChars := by decide
    exact composes.of_bare (bare _ isLiteral)
  | number isNumber => exact composes.of_number isNumber
  | string body => exact composes.string body
  | emptyArray spaces => exact composes.array (composes.of_spaces spaces)
  | array _ ih => exact composes.array ih
  | emptyObject spaces => exact composes.object (composes.of_spaces spaces)
  | object _ ih => exact composes.object ih
  | element before _ after ih =>
    exact composes.append (composes.of_spaces before)
      (composes.append ih (composes.of_spaces after))
  | lastElement _ ih => exact ih
  | elements _ _ first rest => exact composes.append first (composes.cons (by decide) rest)
  | member before name after _ ih =>
    exact composes.append (composes.of_spaces before)
      (composes.append (composes.string name)
        (composes.append (composes.of_spaces after) (composes.cons (by decide) ih)))
  | lastMember _ ih => exact ih
  | members _ _ first rest => exact composes.append first (composes.cons (by decide) rest)

end

end Composes

/-- The characters with which a value begins. -/
def starters : List Char :=
  digitChars ++ ['"', '[', '{', '-', 't', 'f', 'n']

theorem exists_starter_of_number {sign whole fraction exponent : List Char}
    (isNumber : NumberText sign whole fraction exponent) :
    ∃ c ∈ '-' :: digitChars, ∃ rest, sign ++ (whole ++ (fraction ++ exponent)) = c :: rest := by
  rcases isNumber.sign with rfl | rfl
  · rcases isNumber.whole with rfl | ⟨⟨nonempty, digits⟩, -⟩
    · exact ⟨'0', by decide, _, rfl⟩
    · cases whole with
      | nil => exact absurd rfl nonempty
      | cons c rest => exact ⟨c, mem_cons_of_mem _ (digits c mem_cons_self), _, rfl⟩
  · exact ⟨'-', by decide, _, rfl⟩

theorem exists_starter {text : List Char} (derives : Derives .value text) :
    ∃ c ∈ starters, ∃ rest, text = c :: rest := by
  cases derives with
  | literal isLiteral =>
    simp only [literals, mem_cons, not_mem_nil, or_false] at isLiteral
    rcases isLiteral with rfl | rfl | rfl
    · exact ⟨'t', by decide, _, rfl⟩
    · exact ⟨'f', by decide, _, rfl⟩
    · exact ⟨'n', by decide, _, rfl⟩
  | number isNumber =>
    obtain ⟨c, member, found⟩ := exists_starter_of_number isNumber
    have isStarter : ∀ c ∈ '-' :: digitChars, c ∈ starters := by decide
    exact ⟨c, isStarter c member, found⟩
  | string => exact ⟨'"', by decide, _, rfl⟩
  | emptyArray => exact ⟨'[', by decide, _, rfl⟩
  | array => exact ⟨'[', by decide, _, rfl⟩
  | emptyObject => exact ⟨'{', by decide, _, rfl⟩
  | object => exact ⟨'{', by decide, _, rfl⟩

/-- The first character that is not white space begins a value. -/
theorem exists_starter_of_isText {text : List Char} (isText : IsText text) :
    ∃ c ∈ starters, ∃ before rest, Spaces before ∧ text = before ++ c :: rest := by
  cases isText with
  | @element before value after spaces derives _ =>
    obtain ⟨c, isStarter, rest, rfl⟩ := exists_starter derives
    exact ⟨c, isStarter, before, rest ++ after, spaces, rfl⟩

/-- The text of an object is the inner text between braces. -/
theorem exists_inner_of_isObject {text : List Char} (isObject : IsObject text) :
    ∃ inner, text = '{' :: (inner ++ ['}']) ∧
      (Spaces inner ∨ Derives .members inner) := by
  obtain ⟨derives, isBrace⟩ := isObject
  cases derives with
  | literal isLiteral =>
    have other : ∀ text ∈ literals, text.head? ≠ some '{' := by decide
    exact absurd isBrace (other _ isLiteral)
  | number isNumber =>
    obtain ⟨c, member, rest, equal⟩ := exists_starter_of_number isNumber
    rw [equal] at isBrace
    cases isBrace
    exact absurd member (by decide)
  | string => cases isBrace
  | emptyArray => cases isBrace
  | array => cases isBrace
  | emptyObject spaces => exact ⟨_, rfl, Or.inl spaces⟩
  | object members => exact ⟨_, rfl, Or.inr members⟩

end Obelus.Data.JsonText
