import Obelus.Live.FactCheckModel.JoinedTurns
import Obelus.Live.ManualSelection

/-!
# Joined fragments

The words of two joined fragments are those of the left one and those of the right one
behind the longest boundary that it repeats.
-/

namespace Obelus.Live.TranscriptFragments

open Data List ManualSelection
open FactCheckModel (countdown find?_countdown)
open CodeUnits (isSpace units)

def words (text : CodeUnits) : List CodeUnits :=
  wordsAt isSpace text

/-- The last words on the left and the first ones on the right have equal boundary tokens,
none of which is empty. -/
structure Repeats (host : TextHost) (left right : List CodeUnits) (count : Nat) : Prop where
  atMost : count ≤ 8
  inLeft : count ≤ left.length
  inRight : count ≤ right.length
  tokens : (left.drop (left.length - count)).map (boundaryToken host) =
    (right.take count).map (boundaryToken host)
  notEmpty : ∀ word ∈ left.drop (left.length - count), boundaryToken host word ≠ []

variable {host : TextHost} {left right : List CodeUnits}

theorem overlaps_iff {count : Nat} : overlaps host left right count = true ↔
    (left.drop (left.length - count)).map (boundaryToken host) =
        (right.take count).map (boundaryToken host) ∧
      ∀ word ∈ left.drop (left.length - count), boundaryToken host word ≠ [] := by
  simp only [overlaps, all_map]
  simp

theorem reverse_range' (count : Nat) : (range' 1 count).reverse = countdown count := by
  induction count with
  | zero => rfl
  | succ count ih =>
    rw [range'_1_concat, reverse_append, ih, Nat.add_comm]
    rfl

/-- The search finds the longest repeated boundary. -/
theorem repeats_overlap (host : TextHost) (left right : List CodeUnits) {count : Nat}
    (isFound : ((range' 1 (min 8 (min left.length right.length))).reverse.find?
      (overlaps host left right)).getD 0 = count) :
    Repeats host left right count ∧ ∀ other, Repeats host left right other → other ≤ count := by
  obtain ⟨found, within, greatest⟩ :=
    find?_countdown (overlaps host left right) (min 8 (min left.length right.length))
  rw [← reverse_range', isFound] at found within greatest
  constructor
  · have holds : overlaps host left right count = true := by
      rcases found with rfl | holds
      · simp [overlaps_iff]
      · exact holds
    obtain ⟨tokens, notEmpty⟩ := overlaps_iff.mp holds
    exact ⟨by omega, by omega, by omega, tokens, notEmpty⟩
  · intro other repeats
    apply greatest other
    · have := repeats.atMost
      have := repeats.inLeft
      have := repeats.inRight
      omega
    · exact overlaps_iff.mpr ⟨repeats.tokens, repeats.notEmpty⟩

theorem not_isSpace_of_mem_fragmentWords {text word : CodeUnits}
    (isIn : word ∈ fragmentWords text) : ∀ unit ∈ word, isSpace unit = false := by
  unfold fragmentWords at isIn
  split at isIn
  · rw [mem_singleton.mp isIn]
    exact forall_mem_nil _
  · exact (isWord_of_mem_wordsAt isIn).2

theorem filter_fragmentWords (text : CodeUnits) :
    (fragmentWords text).filter (!·.isEmpty) = words text := by
  unfold fragmentWords words
  split
  · next none => exact none.symm
  · exact filter_eq_self.mpr fun word isIn => (mem_filter.mp isIn).2

theorem words_joinTranscriptFragments (left right : CodeUnits) :
    ∃ count, Repeats host (fragmentWords left) (fragmentWords right) count ∧
      (∀ other, Repeats host (fragmentWords left) (fragmentWords right) other → other ≤ count) ∧
        words (joinTranscriptFragments host left right) =
          (fragmentWords left ++ (fragmentWords right).drop count).filter (!·.isEmpty) := by
  generalize isFound : ((range' 1 (min 8 (min (fragmentWords left).length
    (fragmentWords right).length))).reverse.find?
      (overlaps host (fragmentWords left) (fragmentWords right))).getD 0 = count
  obtain ⟨repeats, longest⟩ := repeats_overlap host _ _ isFound
  refine ⟨count, repeats, longest, ?_⟩
  rw [joinTranscriptFragments]
  simp only [isFound]
  rw [words, CodeUnits.wordsAt_trim, wordsAt_joinWords (by decide)]
  intro word isIn
  rcases mem_append.mp isIn with inLeft | inRight
  · exact not_isSpace_of_mem_fragmentWords inLeft
  · exact not_isSpace_of_mem_fragmentWords (mem_of_mem_drop inRight)

/-- The words of the left text are followed by those of the right one without the longest
repeated boundary, and a blank text adds nothing. -/
theorem words_joined (host : TextHost) (left right : CodeUnits) :
    (words left ≠ [] → words right ≠ [] → ∃ count,
      Repeats host (words left) (words right) count ∧
        (∀ other, Repeats host (words left) (words right) other → other ≤ count) ∧
          words (joinTranscriptFragments host left right) =
            words left ++ (words right).drop count) ∧
      (boundaryToken host [] = [] →
        (words left = [] → words (joinTranscriptFragments host left right) = words right) ∧
          (words right = [] → words (joinTranscriptFragments host left right) = words left)) := by
  obtain ⟨count, repeats, longest, joined⟩ := @words_joinTranscriptFragments host left right
  have fragments {text : CodeUnits} (some : words text ≠ []) : fragmentWords text = words text := by
    unfold fragmentWords
    split
    · next none => exact absurd none some
    · rfl
  have blank {text : CodeUnits} (none : words text = []) : fragmentWords text = [[]] := by
    rw [fragmentWords, show wordsAt isSpace text = [] from none]
  constructor
  · intro someLeft someRight
    rw [fragments someLeft, fragments someRight] at repeats longest joined
    refine ⟨count, repeats, longest, joined.trans (filter_eq_self.mpr fun word isIn => ?_)⟩
    rcases mem_append.mp isIn with inLeft | inRight
    · exact (mem_filter.mp inLeft).2
    · exact (mem_filter.mp (mem_of_mem_drop inRight)).2
  · intro noToken
    constructor
    · intro none
      rw [blank none] at repeats joined
      obtain rfl : count = 0 := by
        by_contra positive
        obtain rfl : count = 1 := by
          have := repeats.inLeft
          simp only [length_singleton] at this
          omega
        exact repeats.notEmpty [] (by simp) noToken
      simpa [filter_fragmentWords] using joined
    · intro none
      rw [blank none] at repeats joined
      obtain rfl : count = 0 := by
        by_contra positive
        obtain rfl : count = 1 := by
          have := repeats.inRight
          simp only [length_singleton] at this
          omega
        have tokens := repeats.tokens
        simp only [take_succ_cons, take_zero, map_cons, map_nil, noToken] at tokens
        obtain ⟨word, isLast, isEmpty⟩ := map_eq_singleton_iff.mp tokens
        exact repeats.notEmpty word (by simp [isLast]) isEmpty
      simpa [filter_fragmentWords] using joined

/-- A repeated word is left out once, and a blank text adds nothing. -/
theorem words_joined_plainHost :
    words (joinTranscriptFragments plainHost (units "the sky")
      (units "sky is")) = ["the", "sky", "is"].map units ∧
      boundaryToken plainHost [] = [] ∧
        words (joinTranscriptFragments plainHost (units " ") (units "is")) =
          words (units "is") :=
  ⟨by decide, rfl, ((words_joined plainHost _ _).2 rfl).1 (by decide)⟩

end Obelus.Live.TranscriptFragments
