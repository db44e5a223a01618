import Obelus.Live.FactCheckModel.Detection

/-!
# Joined turns

What the text of a claim is in words: each turn adds its words without the longest run of
words that repeats the end of the text.  The places that the code computes are those of
the words.
-/

namespace Obelus.Live.FactCheckModel

open Data List
open Meetings.Validation (isWhitespace)

/-- The last words on the left are the first ones on the right. -/
def Repeats (unicode : Unicode) (left right : List (List Char)) (count : Nat) : Prop :=
  count ≤ left.length ∧ count ≤ right.length ∧
    List.Forall₂ (fun first second => sameToken unicode first second = true)
      (left.drop (left.length - count)) (right.take count)

/-- As many words as possible are repeated, and at most eight. -/
structure LongestRepeat (unicode : Unicode) (left right : List (List Char)) (count : Nat) :
    Prop where
  repeats : Repeats unicode left right count
  atMost : count ≤ 8
  longest : ∀ other ≤ 8, Repeats unicode left right other → other ≤ count

/-- The words of the turns, and from which word up to which one each of them contributes. -/
inductive JoinsTo (unicode : Unicode) :
    List (List Char) → List (List Char) → List (Nat × Nat) → Prop
  | nil : JoinsTo unicode [] [] []
  | append {texts words : List (List Char)} {places : List (Nat × Nat)} {text : List Char}
      {count : Nat} : JoinsTo unicode texts words places →
      LongestRepeat unicode words (splitWhitespace text) count →
      JoinsTo unicode (texts ++ [text]) (words ++ (splitWhitespace text).drop count)
        (places ++ [(words.length - count,
          words.length + ((splitWhitespace text).length - count))])

variable {unicode : Unicode} {left right texts words : List (List Char)} {count : Nat}
  {quote : List Char} {turns : List DetectionTurn}

theorem LongestRepeat.unique {other : Nat} (first : LongestRepeat unicode left right count)
    (second : LongestRepeat unicode left right other) : count = other :=
  Nat.le_antisymm (second.longest count first.atMost first.repeats)
    (first.longest other second.atMost second.repeats)

theorem JoinsTo.unique {words' : List (List Char)} {places places' : List (Nat × Nat)}
    (first : JoinsTo unicode texts words places) (second : JoinsTo unicode texts words' places') :
    words = words' ∧ places = places' := by
  induction first generalizing words' places' with
  | nil =>
    generalize isNil : ([] : List (List Char)) = texts at second
    cases second with
    | nil => exact ⟨rfl, rfl⟩
    | append => exact absurd isNil.symm (append_ne_nil_of_right_ne_nil _ (by simp))
  | @append texts words places text count _ longest ih =>
    generalize isLast : texts ++ [text] = all at second
    cases second with
    | nil => exact absurd isLast (append_ne_nil_of_right_ne_nil _ (by simp))
    | append before otherLongest =>
      obtain ⟨rfl, isText⟩ := append_inj' isLast rfl
      obtain rfl := singleton_inj.mp isText
      obtain ⟨rfl, rfl⟩ := ih before
      obtain rfl := longest.unique otherLongest
      exact ⟨rfl, rfl⟩

theorem find?_countdown (holds : Nat → Bool) (n : Nat) :
    (((countdown n).find? holds).getD 0 = 0 ∨ holds (((countdown n).find? holds).getD 0) = true) ∧
    ((countdown n).find? holds).getD 0 ≤ n ∧
    ∀ count ≤ n, holds count = true → count ≤ ((countdown n).find? holds).getD 0 := by
  induction n with
  | zero =>
    refine ⟨Or.inl rfl, Nat.le_refl _, ?_⟩
    intro count isZero _
    exact isZero
  | succ n ih =>
    rw [countdown]
    by_cases here : holds (n + 1) = true
    · rw [find?_cons_of_pos here]
      exact ⟨Or.inr here, Nat.le_refl _, fun count within _ => within⟩
    · rw [find?_cons_of_neg here]
      obtain ⟨found, within, greatest⟩ := ih
      refine ⟨found, Nat.le_succ_of_le within, ?_⟩
      intro count inRange isHeld
      rcases Nat.lt_or_eq_of_le inRange with less | rfl
      · exact greatest count (Nat.le_of_lt_succ less) isHeld
      · exact absurd isHeld here

section Words

variable {left right : List (List Char)} (leftWords : ∀ word ∈ left, IsWord isWhitespace word)
  (rightWords : ∀ word ∈ right, IsWord isWhitespace word)

theorem isWhitespace_space : isWhitespace ' ' = true := by
  decide

include leftWords in
theorem tokenSpans_joinWords : whitespaceTokenSpans (joinWords ' ' left) = wordSpans 0 left :=
  spansFrom_joinWords isWhitespace_space leftWords 0

/-- What stands at the spans are the words. -/
theorem map_slice (words : List (List Char)) :
    (wordSpans 0 words).map (slice (joinWords ' ' words)) = words :=
  slices_wordSpans [] words

/-- The comparison of the tokens at the spans is that of the words. -/
theorem all_zip_iff (unicode : Unicode) (left right : List (List Char)) {count : Nat}
    (inLeft : count ≤ left.length) (inRight : count ≤ right.length) :
    ((((wordSpans 0 left).drop (left.length - count)).zip ((wordSpans 0 right).take count)).all
      fun tokens => sameToken unicode (slice (joinWords ' ' left) tokens.1)
        (slice (joinWords ' ' right) tokens.2)) = true ↔
      Repeats unicode left right count := by
  have leftSlices : left.drop (left.length - count) =
      ((wordSpans 0 left).drop (left.length - count)).map (slice (joinWords ' ' left)) := by
    rw [map_drop, map_slice]
  have rightSlices : right.take count =
      ((wordSpans 0 right).take count).map (slice (joinWords ' ' right)) := by
    rw [map_take, map_slice]
  have sameLength : ((wordSpans 0 left).drop (left.length - count)).length =
      ((wordSpans 0 right).take count).length := by
    rw [length_drop, length_take, length_wordSpans, length_wordSpans]
    omega
  rw [Repeats, leftSlices, rightSlices, forall₂_map_left_iff, forall₂_map_right_iff,
    forall₂_iff_zip, all_eq_true]
  constructor
  · intro all
    exact ⟨inLeft, inRight, sameLength, fun {_ _} member => all _ member⟩
  · rintro ⟨-, -, -, all⟩ ⟨first, second⟩ member
    exact all member

include leftWords rightWords in
theorem longestRepeat_of_search (unicode : Unicode) :
    LongestRepeat unicode left right (longestBoundaryTokenOverlap unicode (joinWords ' ' left)
      (whitespaceTokenSpans (joinWords ' ' left)) (joinWords ' ' right)
      (whitespaceTokenSpans (joinWords ' ' right))) := by
  have none : Repeats unicode left right 0 := by
    refine ⟨Nat.zero_le _, Nat.zero_le _, ?_⟩
    rw [Nat.sub_zero, drop_length]
    exact Forall₂.nil
  rw [longestBoundaryTokenOverlap, tokenSpans_joinWords leftWords, tokenSpans_joinWords rightWords]
  simp only [length_wordSpans]
  obtain ⟨found, within, greatest⟩ := find?_countdown (fun count =>
    (((wordSpans 0 left).drop (left.length - count)).zip ((wordSpans 0 right).take count)).all
      fun tokens => sameToken unicode (slice (joinWords ' ' left) tokens.1)
        (slice (joinWords ' ' right) tokens.2)) (min (min left.length right.length) 8)
  generalize ((countdown (min (min left.length right.length) 8)).find? fun count =>
    (((wordSpans 0 left).drop (left.length - count)).zip ((wordSpans 0 right).take count)).all
      fun tokens => sameToken unicode (slice (joinWords ' ' left) tokens.1)
        (slice (joinWords ' ' right) tokens.2)).getD 0 = count at found within greatest ⊢
  constructor
  · rcases found with rfl | held
    · exact none
    · exact (all_zip_iff unicode left right (by omega) (by omega)).mp held
  · omega
  · intro other atMost repeats
    apply greatest other
    · have inLeft := repeats.1
      have inRight := repeats.2.1
      omega
    · exact (all_zip_iff unicode left right repeats.1 repeats.2.1).mpr repeats

end Words

/-- From where up to where the words at the places stand. -/
def charRange (words : List (List Char)) (place : Nat × Nat) : Nat × Nat :=
  (wordStart ' ' words place.1, wordEnd ' ' words place.2)

theorem splitWhitespace_words (text : List Char) :
    ∀ word ∈ splitWhitespace text, IsWord isWhitespace word :=
  fun _ member => isWord_of_mem_wordsAt member

theorem trimStart_joinWords (areWords : ∀ word ∈ words, IsWord isWhitespace word) :
    Formats.trimStart (joinWords ' ' words) = joinWords ' ' words := by
  cases words with
  | nil => rfl
  | cons word rest =>
    obtain ⟨notEmpty, black⟩ := areWords word mem_cons_self
    cases word with
    | nil => exact absurd rfl notEmpty
    | cons c others =>
      have isBlack := black c mem_cons_self
      cases rest with
      | nil => exact dropWhile_cons_of_neg (by simp [isBlack])
      | cons next more => exact dropWhile_cons_of_neg (by simp [isBlack])

/-- What is left of a fragment behind its first words. -/
theorem remainder_eq (areWords : ∀ word ∈ words, IsWord isWhitespace word) (positive : 0 < count)
    (within : count ≤ words.length) :
    Formats.trimStart ((joinWords ' ' words).drop (wordEnd ' ' words count)) =
      joinWords ' ' (words.drop count) := by
  have restWords : ∀ word ∈ words.drop count, IsWord isWhitespace word :=
    fun word member => areWords word (mem_of_mem_drop member)
  rcases Nat.lt_or_eq_of_le within with less | rfl
  · rw [joinWords_split count positive less, wordEnd, drop_left]
    exact trimStart_joinWords restWords
  · rw [wordEnd_length, drop_length, drop_length]
    rfl

section Step

variable {unicode : Unicode} {words : List (List Char)} {text : List Char}
  (areWords : ∀ word ∈ words, IsWord isWhitespace word)
  (notBlank : splitWhitespace text ≠ [])

include areWords notBlank in
/-- A turn adds the words that it does not repeat. -/
theorem appendFragment_joinWords (ranges : List (Nat × Nat)) :
    ∃ count, LongestRepeat unicode words (splitWhitespace text) count ∧
      appendFragment unicode (joinWords ' ' words, ranges) text =
        (joinWords ' ' (words ++ (splitWhitespace text).drop count),
          ranges ++ [charRange (words ++ (splitWhitespace text).drop count)
            (words.length - count, words.length + ((splitWhitespace text).length - count))]) := by
  have fragmentWords := splitWhitespace_words text
  have longest := longestRepeat_of_search areWords fragmentWords unicode
  refine ⟨_, longest, ?_⟩
  rw [appendFragment]
  simp only
  generalize longestBoundaryTokenOverlap unicode (joinWords ' ' words)
    (whitespaceTokenSpans (joinWords ' ' words)) (joinWords ' ' (splitWhitespace text))
    (whitespaceTokenSpans (joinWords ' ' (splitWhitespace text))) = count at longest ⊢
  obtain ⟨inWords, inFragment, -⟩ := longest.repeats
  by_cases isFirst : words = []
  · rw [isFirst] at inWords
    obtain rfl := Nat.le_zero.mp inWords
    simp [isFirst, joinWords, charRange, wordStart, wordEnd_length]
  · have notEmpty : (joinWords ' ' words).isEmpty = false :=
      isEmpty_eq_false_iff.mpr (joinWords_ne_nil areWords isFirst)
    have isLong := length_pos_of_ne_nil isFirst
    have remainder : Formats.trimStart ((joinWords ' ' (splitWhitespace text)).drop
        (if count = 0 then 0
          else (((wordSpans 0 (splitWhitespace text))[count - 1]?).map Prod.snd).getD 0)) =
          joinWords ' ' ((splitWhitespace text).drop count) := by
      split
      · next isZero =>
        rw [isZero]
        exact trimStart_joinWords fragmentWords
      · next isNotZero =>
        rw [getElem?_wordSpans (show count - 1 < _ by omega),
          Nat.sub_add_cancel (Nat.pos_of_ne_zero isNotZero)]
        simp only [Nat.zero_add]
        exact remainder_eq fragmentWords (Nat.pos_of_ne_zero isNotZero) inFragment
    have overlapStart : (if count = 0 then none
        else ((wordSpans 0 words)[words.length - count]?).map Prod.fst) =
          if count = 0 then none else some (wordStart ' ' words (words.length - count)) := by
      split
      · rfl
      · rw [getElem?_wordSpans (show words.length - count < _ by omega), Option.map_some,
          Nat.zero_add]
    rw [if_neg (by simp [notEmpty]), tokenSpans_joinWords areWords,
      tokenSpans_joinWords fragmentWords, length_wordSpans, remainder, overlapStart]
    by_cases isRepeated : (splitWhitespace text).drop count = []
    · -- The turn only repeats.
      have all := drop_eq_nil_iff.mp isRepeated
      have isNotZero : count ≠ 0 := by
        have someWord := length_pos_of_ne_nil notBlank
        omega
      have noMore : (splitWhitespace text).length - count = 0 := by omega
      rw [isRepeated, if_neg isNotZero, append_nil, charRange, noMore]
      simp only [Nat.add_zero, wordEnd_length]
      rfl
    · have restNotEmpty : (joinWords ' ' ((splitWhitespace text).drop count)).isEmpty = false :=
        isEmpty_eq_false_iff.mpr (joinWords_ne_nil
          (fun word member => fragmentWords word (mem_of_mem_drop member)) isRepeated)
      have wholeLength : words.length + ((splitWhitespace text).length - count) =
          (words ++ (splitWhitespace text).drop count).length := by
        rw [length_append, length_drop]
      have start : (if count = 0 then none
          else some (wordStart ' ' words (words.length - count))).getD
            ((joinWords ' ' words).length + 1) =
          wordStart ' ' (words ++ (splitWhitespace text).drop count) (words.length - count) := by
        rw [wordStart_append (Nat.sub_le _ _)]
        split
        · next isZero =>
          rw [isZero, Nat.sub_zero, wordStart, if_neg (by omega), wordEnd_length]
          rfl
        · rfl
      rw [if_neg (by simp [restNotEmpty]), start, ← joinWords_append isFirst isRepeated, charRange,
        wholeLength, wordEnd_length]

end Step

/-- The loop joins the words of the turns, and its ranges are those of the places. -/
theorem foldl_appendFragment (unicode : Unicode)
    (notBlank : ∀ text ∈ texts, splitWhitespace text ≠ []) :
    ∃ words places, JoinsTo unicode texts words places ∧
      (∀ word ∈ words, IsWord isWhitespace word) ∧ (∀ place ∈ places, place.1 ≤ words.length ∧
        place.2 ≤ words.length) ∧
      texts.foldl (appendFragment unicode) ([], []) =
        (joinWords ' ' words, places.map (charRange words)) := by
  induction texts using reverseRecOn with
  | nil =>
    exact ⟨[], [], .nil, forall_mem_nil _, forall_mem_nil _, rfl⟩
  | append_singleton texts text ih =>
    rw [forall_mem_append] at notBlank
    obtain ⟨words, places, joins, areWords, within, folded⟩ := ih notBlank.1
    obtain ⟨count, longest, step⟩ := @appendFragment_joinWords unicode words text areWords
      (notBlank.2 text (mem_singleton_self text)) (places.map (charRange words))
    have isLong : (words ++ (splitWhitespace text).drop count).length =
        words.length + ((splitWhitespace text).length - count) := by
      rw [length_append, length_drop]
    refine ⟨_, _, joins.append longest, ?_, ?_, ?_⟩
    · intro word member
      rcases mem_append.mp member with inBefore | inText
      · exact areWords word inBefore
      · exact splitWhitespace_words text word (mem_of_mem_drop inText)
    · rw [forall_mem_append, forall_mem_singleton]
      refine ⟨?_, by simp only; omega⟩
      intro place member
      obtain ⟨first, second⟩ := within place member
      omega
    · have same : places.map (charRange (words ++ (splitWhitespace text).drop count)) =
          places.map (charRange words) := by
        apply map_congr_left
        intro place member
        obtain ⟨first, second⟩ := within place member
        rw [charRange, charRange, wordStart_append first, wordEnd_append second]
      rw [foldl_append, folded, foldl_cons, step, map_append, same]
      rfl

def textsOf (turns : List DetectionTurn) : List (List Char) :=
  turns.map fun turn => turn.text.toList

/-- The quote stands in the joined text where it shares a place with every turn. -/
def Backed (unicode : Unicode) (quote : List Char) (turns : List DetectionTurn) : Prop :=
  ∃ words places, JoinsTo unicode (textsOf turns) words places ∧
    ∃ before behind, joinWords ' ' words = before ++ (quote ++ behind) ∧
      ∀ place ∈ places, before.length < wordEnd ' ' words place.2 ∧
        wordStart ' ' words place.1 < before.length + quote.length

/-- The quote stands so at an occurrence that is met when the occurrences are gone through
from left to right, each behind the end of the one before. -/
def MetFromLeft (unicode : Unicode) (quote : List Char) (turns : List DetectionTurn) : Prop :=
  ∃ words places, JoinsTo unicode (textsOf turns) words places ∧
    ∃ before behind, joinWords ' ' words = before ++ (quote ++ behind) ∧
      behind ∈ matchTails quote (joinWords ' ' words) ∧
      ∀ place ∈ places, before.length < wordEnd ' ' words place.2 ∧
        wordStart ' ' words place.1 < before.length + quote.length

theorem MetFromLeft.backed (met : MetFromLeft unicode quote turns) :
    Backed unicode quote turns := by
  obtain ⟨words, places, joins, before, behind, isText, -, shares⟩ := met
  exact ⟨words, places, joins, before, behind, isText, shares⟩

/-- The text and the ranges of the code say whether a quote is backed. -/
theorem backed_iff (notBlank : ∀ text ∈ textsOf turns, splitWhitespace text ≠ []) :
    Backed unicode quote turns ↔
      ∃ before behind, (overlapAwareClaimText unicode turns).1 = before ++ (quote ++ behind) ∧
        overlapsAll (overlapAwareClaimText unicode turns).2 before.length
          (before.length + quote.length) = true := by
  obtain ⟨words, places, joins, -, -, folded⟩ := foldl_appendFragment unicode notBlank
  have isText : overlapAwareClaimText unicode turns =
      (joinWords ' ' words, places.map (charRange words)) := folded
  simp only [isText, overlapsAll, all_eq_true, forall_mem_map, Bool.and_eq_true, decide_eq_true_eq]
  constructor
  · rintro ⟨words', places', joins', backed⟩
    obtain ⟨rfl, rfl⟩ := joins.unique joins'
    exact backed
  · intro backed
    exact ⟨words, places, joins, backed⟩

/-- The search of the code goes through the occurrences from left to right. -/
theorem quoteIsBacked_iff (notEmpty : quote ≠ [])
    (notBlank : ∀ text ∈ textsOf turns, splitWhitespace text ≠ []) :
    quoteIsBackedByEveryTurn unicode quote turns = true ↔ MetFromLeft unicode quote turns := by
  obtain ⟨words, places, joins, -, -, folded⟩ := foldl_appendFragment unicode notBlank
  have isText : overlapAwareClaimText unicode turns =
      (joinWords ' ' words, places.map (charRange words)) := folded
  simp only [quoteIsBackedByEveryTurn, isText, any_eq_true, overlapsAll, all_eq_true,
    forall_mem_map, Bool.and_eq_true, decide_eq_true_eq, charRange]
  constructor
  · rintro ⟨behind, isBehind, shares⟩
    obtain ⟨before, isJoined⟩ := exists_front_of_mem notEmpty isBehind
    have isLong := congrArg length isJoined
    simp only [length_append] at isLong
    refine ⟨words, places, joins, before, behind, isJoined, isBehind, ?_⟩
    intro place member
    obtain ⟨first, second⟩ := shares place member
    omega
  · rintro ⟨words', places', joins', before, behind, isJoined, isBehind, shares⟩
    obtain ⟨rfl, rfl⟩ := joins.unique joins'
    have isLong := congrArg length isJoined
    simp only [length_append] at isLong
    refine ⟨behind, isBehind, ?_⟩
    intro place member
    obtain ⟨first, second⟩ := shares place member
    omega

end Obelus.Live.FactCheckModel
