import Mathlib.Data.List.Nodup
import Mathlib.Data.List.Perm.Basic
import Mathlib.Data.String.Basic

/-!
# Text

White space as the source language trims it, and the words of a text.  A text whose
last component cannot contain the separator determines its components.
-/

namespace Obelus.Data

universe u

/-- The white space and line terminators of the source language. -/
def isWhiteSpace (c : Char) : Bool :=
  c.val ∈ [0x9, 0xA, 0xB, 0xC, 0xD, 0x20, 0xA0, 0x1680, 0x2028, 0x2029, 0x202F, 0x205F, 0x3000,
    0xFEFF] || (0x2000 ≤ c.val && c.val ≤ 0x200A)

/-- `String.prototype.trim`. -/
def trim (text : String) : String :=
  let front := text.toList.dropWhile isWhiteSpace
  String.ofList (front.reverse.dropWhile isWhiteSpace).reverse

/-- The last occurrence of a separator splits a list in one way only. -/
theorem append_separator_inj {α : Type u} {separator : α}
    {front front' last last' : List α}
    (absent : separator ∉ last) (absent' : separator ∉ last')
    (equal : front ++ separator :: last = front' ++ separator :: last') :
    front = front' ∧ last = last' := by
  rcases List.append_eq_append_iff.mp equal with
    ⟨middle, frontEq, lastEq⟩ | ⟨middle, frontEq, lastEq⟩
  · cases middle with
    | nil => exact ⟨by simpa using frontEq.symm, by simpa using lastEq⟩
    | cons head rest =>
      have tails := (List.cons.inj lastEq).2
      exact absurd (by rw [tails]; simp) absent
  · cases middle with
    | nil => exact ⟨by simpa using frontEq, by simpa using lastEq.symm⟩
    | cons head rest =>
      have tails := (List.cons.inj lastEq).2
      exact absurd (by rw [tails]; simp) absent'

/-!
## Code units

The texts of the source language where they are cut: lists of UTF-16 code units, in which a
cut may leave half a character.
-/

abbrev CodeUnits := List UInt16

namespace CodeUnits

def ofChar (c : Char) : CodeUnits :=
  if c.toNat < 0x10000 then [UInt16.ofNat c.toNat]
  else
    let offset := c.toNat - 0x10000
    [UInt16.ofNat (0xD800 + offset / 0x400), UInt16.ofNat (0xDC00 + offset % 0x400)]

/-- The code units of a text. -/
def units (text : String) : CodeUnits :=
  text.toList.flatMap ofChar

/-- What `\s` matches. -/
def isSpace (unit : UInt16) : Bool :=
  ([0x9, 0xA, 0xB, 0xC, 0xD, 0x20, 0xA0, 0x1680, 0x2028, 0x2029, 0x202F, 0x205F, 0x3000,
    0xFEFF] : CodeUnits).contains unit || (0x2000 ≤ unit && unit ≤ 0x200A)

/-- `replace(/\s+/g, ' ')`, behind a space or not. -/
def collapseFrom (behindSpace : Bool) : CodeUnits → CodeUnits
  | [] => []
  | unit :: rest =>
    if isSpace unit then
      if behindSpace then collapseFrom true rest else 0x20 :: collapseFrom true rest
    else unit :: collapseFrom false rest

def trim (text : CodeUnits) : CodeUnits :=
  ((text.dropWhile isSpace).reverse.dropWhile isSpace).reverse

/-- The bytes of a code unit that is not half of a pair. -/
def byteLength (unit : UInt16) : Nat :=
  if unit < 0x80 then 1 else if unit < 0x800 then 2 else 3

def isHigh (unit : UInt16) : Bool :=
  0xD800 ≤ unit && unit ≤ 0xDBFF

def isLow (unit : UInt16) : Bool :=
  0xDC00 ≤ unit && unit ≤ 0xDFFF

/-- `Buffer.byteLength(text, 'utf8')`. -/
def utf8Length : CodeUnits → Nat
  | [] => 0
  | [unit] => byteLength unit
  | unit :: next :: rest =>
    if isHigh unit && isLow next then 4 + utf8Length rest
    else byteLength unit + utf8Length (next :: rest)

/-- `includes`. -/
def includes (text searched : CodeUnits) : Bool :=
  text.tails.any fun behind => searched.isPrefixOf behind

/-- A character in lower case where it is an ASCII letter, as a pattern without case reads it. -/
def lower (unit : UInt16) : UInt16 :=
  if 0x41 ≤ unit ∧ unit ≤ 0x5A then unit + 0x20 else unit

example : units "a😀" = [0x61, 0xD83D, 0xDE00] := by decide

/-- A text of digits has the code units of digits only. -/
theorem between_of_mem_units_digits {digits : List Char} (all : ∀ c ∈ digits, c.isDigit = true)
    {unit : UInt16} (member : unit ∈ digits.flatMap ofChar) : 0x30 ≤ unit ∧ unit ≤ 0x39 := by
  obtain ⟨c, isIn, isUnit⟩ := List.mem_flatMap.mp member
  have bounds := Char.isDigit_iff_toNat.mp (all c isIn)
  have lower : '0'.toNat = 48 := rfl
  have upper : '9'.toNat = 57 := rfl
  rw [ofChar, if_pos (by omega), List.mem_singleton] at isUnit
  subst isUnit
  constructor
  · change 48 ≤ c.toNat % 65536
    omega
  · change c.toNat % 65536 ≤ 57
    omega

end CodeUnits

/-!
## Words

A text as words between white space.  Where the words that are joined by one separator
stand, and that the spans that a scan of the text finds are those of the words.
-/

open List

variable {α : Type u}

/-- The words of a text, from left to right. -/
def wordsAt (white : α → Bool) (text : List α) : List (List α) :=
  (text.splitOnP white).filter (!·.isEmpty)

/-- The words with one separator between neighbours. -/
def joinWords (separator : α) : List (List α) → List α
  | [] => []
  | [word] => word
  | word :: next :: rest => word ++ separator :: joinWords separator (next :: rest)

/-- Where the words stand, in a scan that has found the first element of a word or none. -/
def spansFrom (white : α → Bool) : Option Nat → Nat → List α → List (Nat × Nat)
  | none, _, [] => []
  | some start, index, [] => [(start, index)]
  | none, index, c :: rest =>
    if white c then spansFrom white none (index + 1) rest
    else spansFrom white (some index) (index + 1) rest
  | some start, index, c :: rest =>
    if white c then (start, index) :: spansFrom white none (index + 1) rest
    else spansFrom white (some start) (index + 1) rest

def tokenSpans (white : α → Bool) (text : List α) : List (Nat × Nat) :=
  spansFrom white none 0 text

/-- The part of a text from the first place up to the second. -/
def slice (text : List α) (span : Nat × Nat) : List α :=
  (text.take span.2).drop span.1

/-- A word has an element and none that is white. -/
def IsWord (white : α → Bool) (word : List α) : Prop :=
  word ≠ [] ∧ ∀ c ∈ word, white c = false

/-- Where the words stand that are joined from a place on. -/
def wordSpans : Nat → List (List α) → List (Nat × Nat)
  | _, [] => []
  | index, word :: rest => (index, index + word.length) :: wordSpans (index + word.length + 1) rest

/-- The end of the first words. -/
def wordEnd (separator : α) (words : List (List α)) (count : Nat) : Nat :=
  (joinWords separator (words.take count)).length

/-- The place of a word. -/
def wordStart (separator : α) (words : List (List α)) (place : Nat) : Nat :=
  if place = 0 then 0 else wordEnd separator words place + 1

variable {white : α → Bool} {separator : α} {words : List (List α)} {word text : List α}

/-- Two sets of words share equally many words, from whichever side they are counted. -/
theorem length_filter_mem_comm [DecidableEq α] {left right : List α} (leftNodup : left.Nodup)
    (rightNodup : right.Nodup) :
    (left.filter (· ∈ right)).length = (right.filter (· ∈ left)).length := by
  apply Perm.length_eq
  apply (perm_ext_iff_of_nodup (leftNodup.filter _) (rightNodup.filter _)).mpr
  simp [and_comm]

theorem not_white_of_mem_splitOnP (member : word ∈ text.splitOnP white) :
    ∀ c ∈ word, white c = false := by
  induction text generalizing word with
  | nil =>
    rw [splitOnP_nil, mem_singleton] at member
    rw [member]
    exact forall_mem_nil _
  | cons first rest ih =>
    rw [splitOnP_cons_eq_if_modifyHead] at member
    split at member
    · rcases mem_cons.mp member with rfl | inRest
      · exact forall_mem_nil _
      · exact ih inRest
    · next black =>
      cases pieces : rest.splitOnP white with
      | nil => exact absurd pieces (splitOnP_ne_nil white rest)
      | cons piece others =>
        rw [pieces] at member
        rw [pieces] at ih
        rcases mem_cons.mp member with rfl | inOthers
        · exact forall_mem_cons.mpr ⟨Bool.eq_false_iff.mpr black, ih mem_cons_self⟩
        · exact ih (mem_cons_of_mem _ inOthers)

theorem isWord_of_mem_wordsAt (member : word ∈ wordsAt white text) : IsWord white word := by
  obtain ⟨inPieces, notEmpty⟩ := mem_filter.mp member
  refine ⟨?_, not_white_of_mem_splitOnP inPieces⟩
  simpa using notEmpty

/-- A text that is not white has a word. -/
theorem wordsAt_ne_nil {c : α} (member : c ∈ text) (black : white c = false) :
    wordsAt white text ≠ [] := by
  induction text with
  | nil => cases member
  | cons first rest ih =>
    rw [wordsAt, splitOnP_cons_eq_if_modifyHead]
    split
    · next isWhite =>
      rcases mem_cons.mp member with rfl | inRest
      · rw [black] at isWhite
        cases isWhite
      · exact ih inRest
    · cases pieces : rest.splitOnP white with
      | nil => exact absurd pieces (splitOnP_ne_nil white rest)
      | cons piece others =>
        exact cons_ne_nil _ _

/-- A white element belongs to no word. -/
theorem wordsAt_append_cons (isWhite : white separator = true) (front back : List α) :
    wordsAt white (front ++ separator :: back) = wordsAt white front ++ wordsAt white back := by
  rw [wordsAt, splitOnP_append_cons _ _ isWhite, filter_append]
  rfl

theorem wordsAt_joinWords (isWhite : white separator = true)
    (black : ∀ word ∈ words, ∀ c ∈ word, white c = false) :
    wordsAt white (joinWords separator words) = words.filter (!·.isEmpty) := by
  induction words with
  | nil => rfl
  | cons word rest ih =>
    obtain ⟨wordBlack, restBlack⟩ := forall_mem_cons.mp black
    have one : wordsAt white word = [word].filter (!·.isEmpty) := by
      rw [wordsAt, splitOnP_eq_singleton wordBlack]
    cases rest with
    | nil => exact one
    | cons next others =>
      rw [joinWords, wordsAt_append_cons isWhite, ih restBlack, one, ← filter_append]
      rfl

theorem wordsAt_white_append {blank : List α} (isWhite : ∀ c ∈ blank, white c = true) :
    wordsAt white (blank ++ text) = wordsAt white text ∧
      wordsAt white (text ++ blank) = wordsAt white text := by
  induction blank generalizing text with
  | nil => exact ⟨rfl, congrArg _ (append_nil text)⟩
  | cons c rest ih =>
    obtain ⟨here, restWhite⟩ := forall_mem_cons.mp isWhite
    constructor
    · exact (wordsAt_append_cons here [] (rest ++ text)).trans (ih restWhite).1
    · rw [wordsAt_append_cons here, ← append_nil rest, (ih restWhite).1]
      exact append_nil _

theorem joinWords_append {left right : List (List α)} (leftNotEmpty : left ≠ [])
    (rightNotEmpty : right ≠ []) : joinWords separator (left ++ right) =
      joinWords separator left ++ separator :: joinWords separator right := by
  induction left with
  | nil => exact absurd rfl leftNotEmpty
  | cons word rest ih =>
    cases rest with
    | nil =>
      cases right with
      | nil => exact absurd rfl rightNotEmpty
      | cons next others => rfl
    | cons next others =>
      have inner := ih (cons_ne_nil _ _)
      rw [cons_append, cons_append, joinWords, ← cons_append, inner, joinWords, append_assoc]
      rfl

theorem joinWords_ne_nil (areWords : ∀ word ∈ words, IsWord white word) (notEmpty : words ≠ []) :
    joinWords separator words ≠ [] := by
  cases words with
  | nil => exact absurd rfl notEmpty
  | cons word rest =>
    have isWord := (forall_mem_cons.mp areWords).1
    cases rest with
    | nil => exact isWord.1
    | cons next others => exact append_ne_nil_of_left_ne_nil isWord.1 _

/-- The end of the words, and the words behind a part of them. -/
theorem joinWords_split (count : Nat) (positive : 0 < count) (within : count < words.length) :
    joinWords separator words =
      joinWords separator (words.take count) ++
        separator :: joinWords separator (words.drop count) := by
  have leftNotEmpty : words.take count ≠ [] := by
    apply ne_nil_of_length_pos
    rw [length_take]
    omega
  have rightNotEmpty : words.drop count ≠ [] := by
    apply ne_nil_of_length_pos
    rw [length_drop]
    omega
  rw [← joinWords_append leftNotEmpty rightNotEmpty, take_append_drop]

theorem wordEnd_append {more : List (List α)} {count : Nat} (within : count ≤ words.length) :
    wordEnd separator (words ++ more) count = wordEnd separator words count := by
  rw [wordEnd, wordEnd, take_append_of_le_length within]

theorem wordStart_append {more : List (List α)} {place : Nat} (within : place ≤ words.length) :
    wordStart separator (words ++ more) place = wordStart separator words place := by
  rw [wordStart, wordStart, wordEnd_append within]

theorem wordEnd_length (words : List (List α)) :
    wordEnd separator words words.length = (joinWords separator words).length := by
  rw [wordEnd, take_length]

theorem spansFrom_word (isWord : ∀ c ∈ word, white c = false) (start index : Nat) (rest : List α) :
    spansFrom white (some start) index (word ++ rest) =
      spansFrom white (some start) (index + word.length) rest := by
  induction word generalizing index with
  | nil => rfl
  | cons c others ih =>
    obtain ⟨black, othersBlack⟩ := forall_mem_cons.mp isWord
    rw [cons_append, spansFrom, if_neg (by simp [black]), ih othersBlack, length_cons]
    congr 1
    omega

theorem spansFrom_isWord (isWord : IsWord white word) (index : Nat) (rest : List α) :
    spansFrom white none index (word ++ rest) =
      spansFrom white (some index) (index + word.length) rest := by
  obtain ⟨notEmpty, allBlack⟩ := isWord
  cases word with
  | nil => exact absurd rfl notEmpty
  | cons c others =>
    obtain ⟨black, othersBlack⟩ := forall_mem_cons.mp allBlack
    rw [cons_append, spansFrom, if_neg (by simp [black]), spansFrom_word othersBlack, length_cons]
    congr 1
    omega

/-- A scan of joined words finds the words. -/
theorem spansFrom_joinWords (isWhite : white separator = true)
    (areWords : ∀ word ∈ words, IsWord white word) (index : Nat) :
    spansFrom white none index (joinWords separator words) = wordSpans index words := by
  induction words generalizing index with
  | nil => rfl
  | cons word rest ih =>
    obtain ⟨isWord, restWords⟩ := forall_mem_cons.mp areWords
    cases rest with
    | nil =>
      have one := spansFrom_isWord isWord index []
      rw [append_nil] at one
      exact one
    | cons next others =>
      rw [joinWords, spansFrom_isWord isWord, spansFrom, if_pos isWhite, ih restWords]
      rfl

theorem length_wordSpans (index : Nat) (words : List (List α)) :
    (wordSpans index words).length = words.length := by
  induction words generalizing index with
  | nil => rfl
  | cons word rest ih => rw [wordSpans, length_cons, ih, length_cons]

/-- What stands at the spans are the words. -/
theorem slices_wordSpans (front : List α) (words : List (List α)) :
    (wordSpans front.length words).map (slice (front ++ joinWords separator words)) = words := by
  induction words generalizing front with
  | nil => rfl
  | cons word rest ih =>
    have first : ∀ more,
        slice (front ++ (word ++ more)) (front.length, front.length + word.length) = word := by
      intro more
      rw [slice, ← append_assoc, take_append_of_le_length (by simp),
        take_of_length_le (by simp), drop_left]
    rw [wordSpans, map_cons]
    cases rest with
    | nil =>
      have one := first []
      rw [append_nil] at one
      rw [joinWords, one]
      rfl
    | cons next others =>
      have regroup : front ++ joinWords separator (word :: next :: others) =
          (front ++ (word ++ [separator])) ++ joinWords separator (next :: others) := by
        simp [joinWords]
      have isLong : (front ++ (word ++ [separator])).length =
          front.length + word.length + 1 := by
        simp only [length_append, length_cons, length_nil]
        omega
      have others := ih (front ++ (word ++ [separator]))
      rw [isLong] at others
      rw [regroup, others, ← regroup, joinWords, first]

/-- The span of a word is from its place to its end. -/
theorem getElem?_wordSpans {place : Nat} (within : place < words.length) (index : Nat) :
    (wordSpans index words)[place]? =
      some (index + wordStart separator words place,
        index + wordEnd separator words (place + 1)) := by
  induction words generalizing index place with
  | nil => exact absurd within (Nat.not_lt_zero _)
  | cons word rest ih =>
    cases place with
    | zero =>
      rfl
    | succ place =>
      have restWithin : place < rest.length := by simpa using within
      have shift : ∀ count, 0 < count → count ≤ rest.length →
          wordEnd separator (word :: rest) (count + 1) =
            word.length + 1 + wordEnd separator rest count := by
        intro count positive isWithin
        have notEmpty : rest.take count ≠ [] := by
          apply ne_nil_of_length_pos
          rw [length_take]
          omega
        rw [wordEnd, wordEnd, take_succ_cons, ← singleton_append,
          joinWords_append (cons_ne_nil _ _) notEmpty, joinWords, length_append, length_cons]
        omega
      rw [wordSpans, getElem?_cons_succ, ih restWithin, shift (place + 1) (by omega) restWithin]
      congr 2
      · rw [wordStart, wordStart, if_neg (show place + 1 ≠ 0 by omega)]
        split
        · next isZero =>
          rw [isZero, wordEnd, take_succ_cons, take_zero, joinWords]
          omega
        · rw [shift place (by omega) (by omega)]
          omega
      · omega

theorem CodeUnits.wordsAt_trim (text : CodeUnits) :
    wordsAt isSpace (trim text) = wordsAt isSpace text := by
  have white (text : CodeUnits) : ∀ c ∈ text.takeWhile isSpace, isSpace c = true :=
    all_eq_true.mp all_takeWhile
  have behind := takeWhile_append_dropWhile (p := isSpace) (l := (text.dropWhile isSpace).reverse)
  rw [← reverse_inj, reverse_append, reverse_reverse] at behind
  calc wordsAt isSpace (trim text)
      = wordsAt isSpace (text.dropWhile isSpace) := by
        rw [← behind]
        refine ((wordsAt_white_append fun c isIn => ?_).2).symm
        exact white _ c (mem_reverse.mp isIn)
    _ = wordsAt isSpace text := by
        rw [← (wordsAt_white_append (white text)).1, takeWhile_append_dropWhile]

end Obelus.Data
