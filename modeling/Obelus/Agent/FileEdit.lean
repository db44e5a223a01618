import Obelus.Data.Occurrence
import Obelus.Formats.ToolArguments

/-!
# Edits of a file

The tool that replaces a text in a file by another one, with the messages for a text that is
not found or found more than once.  Positions count characters.  A slice whose bounds are out
of range, on which the source panics, gives nothing.
-/

namespace Obelus.Agent.FileEdit

open List
open Data (matchTails splitOnce)

def noMatchPreviewLines : Nat := 20

def stripCarriageReturn (line : List Char) : List Char :=
  if line.getLast? = some '\r' then line.dropLast else line

/-- The lines of a text of which the first one has begun already. -/
def linesFrom (line : List Char) : List Char → List (List Char)
  | [] => if line = [] then [] else [line]
  | c :: rest =>
    if c = '\n' then stripCarriageReturn line :: linesFrom [] rest
    else linesFrom (line ++ [c]) rest

/-- `str::lines`. -/
def lines (text : List Char) : List (List Char) :=
  linesFrom [] text

def joinLines (lines : List (List Char)) : List Char :=
  ['\n'].intercalate lines

/-- `lines[start..stop]`. -/
def slice (lines : List (List Char)) (start stop : Nat) : Option (List (List Char)) :=
  if start ≤ stop ∧ stop ≤ lines.length then some ((lines.take stop).drop start) else none

def countLinesBefore (content : List Char) (position : Nat) : Nat :=
  (content.take position).count '\n' + 1

def getLineContext (content : List Char) (targetLine context : Nat) : Option (List Char) :=
  let start := targetLine - (context + 1)
  let stop := min (targetLine + context) (lines content).length
  (slice (lines content) start stop).map joinLines

/-- The lines around the first line that has the text or is part of it. -/
def findSimilarContext (content search : List Char) : Option (Option (List Char)) :=
  match (lines search).head? with
  | none => some none
  | some searched =>
    let firstLine := Formats.trim searched
    if firstLine.isEmpty then some none
    else
      match (lines content).findIdx? fun line =>
          decide (firstLine <:+: line) || decide (Formats.trim line <:+: firstLine) with
      | none => some none
      | some index => (getLineContext content (index + 1) 2).map some

/-- A number in four columns. -/
def column (number : Nat) : List Char :=
  let digits := (toString number).toList
  List.replicate (4 - digits.length) ' ' ++ digits

def buildFilePreview (content : List Char) (maxLines : Nat) : Option (List Char) :=
  if content.isEmpty then some "(file is empty)".toList
  else
    let all := lines content
    let previewEnd := min all.length maxLines
    (slice all 0 previewEnd).map fun shown =>
      let preview := joinLines (shown.mapIdx fun index line =>
        column (index + 1) ++ ": ".toList ++ line)
      if previewEnd < all.length then
        preview ++ s!"\n... ({all.length - previewEnd} more lines)".toList
      else preview

def fenced (title : String) (text : List Char) : List Char :=
  title.toList ++ "\n```\n".toList ++ text ++ "\n```".toList

def noMatchMessage (content before : List Char) : Option (List Char) := do
  let suggestion ← findSimilarContext content before
  let preview ← buildFilePreview content noMatchPreviewLines
  pure ("No match found for the specified text.".toList ++
    (suggestion.map (fenced "\n\nDid you mean:")).getD [] ++ fenced "\n\nFile preview:" preview)

def matchMessage (content : List Char) (index position : Nat) : Option (List Char) :=
  let line := countLinesBefore content position
  (getLineContext content line 1).map (fenced s!"\nMatch {index + 1} (line {line}):")

def manyMatchesMessage (content : List Char) (positions : List Nat) : Option (List Char) := do
  let matched ← ((positions.take 2).zipIdx).mapM fun place => matchMessage content place.2 place.1
  pure (s!"Found {positions.length} matches. ".toList ++
    "Please provide more context to identify a unique match:\n".toList ++ matched.flatten ++
    if 2 < positions.length then s!"\n\n...and {positions.length - 2} more".toList else [])

/-- `match_indices`: the places of matches that do not overlap, from left to right.  The empty
text matches between all characters. -/
def matchIndices (content before : List Char) : List Nat :=
  if before.isEmpty then List.range (content.length + 1)
  else (matchTails before content).map fun behind =>
    content.length - behind.length - before.length

/-- `replacen(before, after, 1)`. -/
def replaceFirst (content before after : List Char) : List Char :=
  match splitOnce before content with
  | none => content
  | some (front, behind) => front ++ (after ++ behind)

def stringReplace (content before after : List Char) :
    Option (Except (List Char) (List Char)) :=
  match matchIndices content before with
  | [] => (noMatchMessage content before).map .error
  | [_] => some (.ok (replaceFirst content before after))
  | positions => (manyMatchesMessage content positions).map .error

/-- The result of the tool. -/
inductive EditResult
  | success (text : List Char)
  | error (text : List Char)

/-- What is read from the file and what comes of writing it. -/
structure EditedFile where
  read : Except (List Char) (List Char)
  write : List Char → Except (List Char) Unit

/-- The content that is handed to the write of the file, if there is one, and the result. -/
def fileEdit (file : EditedFile) (path before after : List Char) :
    Option (Option (List Char) × EditResult) :=
  match file.read with
  | .error error =>
    some (none, .error ("Failed to read ".toList ++ path ++ ": ".toList ++ error))
  | .ok content =>
    (stringReplace content before after).map fun replaced =>
      match replaced with
      | .error message => (none, .error message)
      | .ok newContent =>
        (some newContent,
          match file.write newContent with
          | .ok _ => .success ("Edited ".toList ++ path ++
              s!" ({(lines before).length} lines -> {(lines after).length} lines)".toList)
          | .error error =>
            .error ("Failed to write ".toList ++ path ++ ": ".toList ++ error))

theorem count_le_length_linesFrom (line text : List Char) :
    text.count '\n' ≤ (linesFrom line text).length := by
  induction text generalizing line with
  | nil => exact Nat.zero_le _
  | cons c rest ih =>
    rw [linesFrom]
    by_cases isBreak : c = '\n'
    · rw [isBreak, count_cons_self]
      exact Nat.succ_le_succ (ih [])
    · rw [if_neg isBreak, count_cons_of_ne isBreak]
      exact ih (line ++ [c])

/-- A line that is at most one behind the last has a context. -/
theorem isSome_getLineContext {content : List Char} {targetLine context : Nat}
    (within : targetLine ≤ (lines content).length + 1) :
    (getLineContext content targetLine context).isSome = true := by
  have inRange : targetLine - (context + 1) ≤ min (targetLine + context) (lines content).length ∧
      min (targetLine + context) (lines content).length ≤ (lines content).length := by
    omega
  rw [getLineContext]
  simp only [slice]
  rw [if_pos inRange]
  rfl

theorem countLinesBefore_le (content : List Char) (position : Nat) :
    countLinesBefore content position ≤ (lines content).length + 1 := by
  have fewer : (content.take position).count '\n' ≤ content.count '\n' :=
    (take_sublist position content).count_le '\n'
  have all := count_le_length_linesFrom [] content
  rw [countLinesBefore, lines]
  omega

theorem isSome_findSimilarContext (content search : List Char) :
    (findSimilarContext content search).isSome = true := by
  rw [findSimilarContext]
  split
  · rfl
  · simp only
    split
    · rfl
    · split
      · rfl
      · next index found =>
        obtain ⟨within, -⟩ := findIdx?_eq_some_iff_getElem.mp found
        rw [Option.isSome_map]
        apply isSome_getLineContext
        omega

theorem isSome_buildFilePreview (content : List Char) (maxLines : Nat) :
    (buildFilePreview content maxLines).isSome = true := by
  rw [buildFilePreview]
  split
  · rfl
  · rw [Option.isSome_map, slice, if_pos ⟨Nat.zero_le _, Nat.min_le_left _ _⟩]
    rfl

theorem isSome_noMatchMessage (content before : List Char) :
    (noMatchMessage content before).isSome = true := by
  obtain ⟨suggestion, isSuggestion⟩ :=
    Option.isSome_iff_exists.mp (isSome_findSimilarContext content before)
  obtain ⟨preview, isPreview⟩ :=
    Option.isSome_iff_exists.mp (isSome_buildFilePreview content noMatchPreviewLines)
  rw [noMatchMessage, isSuggestion, isPreview]
  rfl

/-!
## Unique edits

A text is replaced where it occurs in one place only.  The code counts matches that do not
overlap, so that it takes a text for unique which occurs twice in overlapping places.
-/

open Data List

/-- The text occurs in the content at a place. -/
def OccursAt (content before : List Char) (place : Nat) : Prop :=
  ∃ front back, content = front ++ (before ++ back) ∧ front.length = place

/-- The text occurs in two places that do not overlap. -/
def TwiceApart (content before : List Char) : Prop :=
  ∃ first second, OccursAt content before first ∧ OccursAt content before second ∧
    first < second ∧ first + before.length ≤ second

section Matches

variable {content before front behind : List Char}

/-- No occurrence stands before the first match. -/
theorem le_of_occursAt (found : splitOnce before content = some (front, behind)) {place : Nat}
    (occurs : OccursAt content before place) : front.length ≤ place := by
  obtain ⟨rfl, none⟩ := splitOnce_eq_some_iff.mp found
  obtain ⟨left, right, isContent, rfl⟩ := occurs
  by_contra earlier
  have isFront : front = left ++ front.drop left.length := by
    have lefts := congrArg (take left.length) isContent
    rw [take_left, take_append_of_le_length (by omega)] at lefts
    rw [← lefts, length_take, Nat.min_eq_left (by omega), take_append_drop]
  apply none left (front.drop left.length) isFront
  · intro isEmpty
    have short := drop_eq_nil_iff.mp isEmpty
    omega
  · refine ⟨right, ?_⟩
    rw [isFront, append_assoc] at isContent
    exact (append_cancel_left isContent).symm

theorem occursAt_of_splitOnce (found : splitOnce before content = some (front, behind)) :
    OccursAt content before front.length :=
  ⟨front, behind, (splitOnce_eq_some_iff.mp found).1, rfl⟩

/-- Without a match there is no occurrence. -/
theorem not_occursAt (notEmpty : before ≠ []) (found : splitOnce before content = none)
    (place : Nat) : ¬OccursAt content before place := by
  rintro ⟨left, right, rfl, rfl⟩
  have none := (splitOnce_eq_none_iff notEmpty).mp found
  apply none left (before ++ right) rfl
  · simp [notEmpty]
  · rw [append_nil]
    exact prefix_append before right

/-- Two occurrences that do not overlap leave a match behind the first one. -/
theorem exists_match_behind (notEmpty : before ≠ [])
    (found : splitOnce before content = some (front, behind)) (twice : TwiceApart content before) :
    ∃ parts, splitOnce before behind = some parts := by
  obtain ⟨first, second, occursFirst, ⟨left, right, isContent, isLength⟩, -, apart⟩ := twice
  have isFirst := le_of_occursAt found occursFirst
  obtain ⟨isText, -⟩ := splitOnce_eq_some_iff.mp found
  have isBehind : behind = left.drop (front.length + before.length) ++ (before ++ right) := by
    have drops := congrArg (drop (front.length + before.length)) (isText.symm.trans isContent)
    rw [← append_assoc, ← length_append, drop_left, length_append,
      drop_append_of_le_length (by omega)] at drops
    exact drops
  cases again : splitOnce before behind with
  | none =>
    exfalso
    apply not_occursAt notEmpty again (left.drop (front.length + before.length)).length
    exact ⟨_, _, isBehind, rfl⟩
  | some parts => exact ⟨parts, rfl⟩

theorem twiceApart_of_behind (notEmpty : before ≠ [])
    (found : splitOnce before content = some (front, behind)) {parts : List Char × List Char}
    (again : splitOnce before behind = some parts) : TwiceApart content before := by
  obtain ⟨isText, -⟩ := splitOnce_eq_some_iff.mp found
  obtain ⟨isBehind, -⟩ := splitOnce_eq_some_iff.mp again
  have isLong := length_pos_of_ne_nil notEmpty
  refine ⟨front.length, (front ++ (before ++ parts.1)).length, occursAt_of_splitOnce found,
    ⟨front ++ (before ++ parts.1), parts.2, ?_, rfl⟩, ?_, ?_⟩
  · rw [isText, isBehind]
    simp
  · simp only [length_append]
    omega
  · simp only [length_append]
    omega

end Matches

variable {content before : List Char} {place : Nat}

theorem occursAt_le (occurs : OccursAt content before place) : place ≤ content.length := by
  obtain ⟨front, back, rfl, rfl⟩ := occurs
  simp only [length_append]
  omega

theorem occursAt_nil_iff : OccursAt content [] place ↔ place ≤ content.length := by
  constructor
  · exact occursAt_le
  · intro within
    refine ⟨content.take place, content.drop place, ?_, ?_⟩
    · rw [nil_append, take_append_drop]
    · rw [length_take, Nat.min_eq_left within]

/-- How many matches the code counts: none when there is no occurrence, one when no two
occurrences are apart, and more when two are. -/
inductive Counts (content before : List Char) : List Nat → Prop
  | none : (∀ place, ¬OccursAt content before place) → Counts content before []
  | one {front behind : List Char} {place : Nat} :
      splitOnce before content = some (front, behind) → ¬TwiceApart content before →
      Counts content before [place]
  | many {first second : Nat} {rest : List Nat} : TwiceApart content before →
      Counts content before (first :: second :: rest)

theorem counts_matchIndices (content before : List Char) :
    Counts content before (matchIndices content before) := by
  rw [matchIndices]
  by_cases isEmpty : before = []
  · obtain rfl := isEmpty
    cases content with
    | nil =>
      apply @Counts.one [] [] [] [] 0 rfl
      rintro ⟨first, second, -, occurs, less, -⟩
      exact absurd (Nat.lt_of_lt_of_le less (occursAt_le occurs)) (Nat.not_lt_zero first)
    | cons c rest =>
      rw [length_cons, range_succ_eq_map, range_succ_eq_map]
      apply Counts.many
      refine ⟨0, 1, occursAt_nil_iff.mpr (Nat.zero_le _), occursAt_nil_iff.mpr ?_, ?_, ?_⟩
      · simp
      · decide
      · decide
  · rw [if_neg (by simpa using isEmpty)]
    cases found : splitOnce before content with
    | none =>
      rw [matchTails_eq_nil found]
      exact Counts.none (not_occursAt isEmpty found)
    | some parts =>
      obtain ⟨front, behind⟩ := parts
      rw [matchTails_eq_cons isEmpty found]
      cases again : splitOnce before behind with
      | none =>
        rw [matchTails_eq_nil again]
        apply Counts.one found
        intro twice
        obtain ⟨parts, other⟩ := exists_match_behind isEmpty found twice
        rw [again] at other
        cases other
      | some parts =>
        rw [matchTails_eq_cons isEmpty again]
        exact Counts.many (twiceApart_of_behind isEmpty found again)

theorem isSome_manyMatchesMessage (content : List Char) (positions : List Nat) :
    (manyMatchesMessage content positions).isSome = true := by
  have all : ∀ place ∈ (positions.take 2).zipIdx,
      (matchMessage content place.2 place.1).isSome = true := by
    intro place _
    rw [matchMessage, Option.isSome_map]
    exact isSome_getLineContext (countLinesBefore_le content place.1)
  obtain ⟨matched, areMatched⟩ := exists_mapM_eq_some all
  rw [manyMatchesMessage, areMatched]
  rfl

/-- What the replacement does is said by the matches that are counted. -/
theorem stringReplace_cases (content before after : List Char) :
    (∃ message, stringReplace content before after = some (.error message) ∧
      ((∀ place, ¬OccursAt content before place) ∨ TwiceApart content before)) ∨
    ∃ front behind, stringReplace content before after = some (.ok (front ++ (after ++ behind))) ∧
      content = front ++ (before ++ behind) ∧ ¬TwiceApart content before := by
  have counts := counts_matchIndices content before
  rw [stringReplace]
  generalize matchIndices content before = places at counts
  cases counts with
  | none absent =>
    obtain ⟨message, isMessage⟩ :=
      Option.isSome_iff_exists.mp (isSome_noMatchMessage content before)
    rw [isMessage]
    exact Or.inl ⟨message, rfl, Or.inl absent⟩
  | @one front behind place found notTwice =>
    refine Or.inr ⟨front, behind, ?_, (splitOnce_eq_some_iff.mp found).1, notTwice⟩
    rw [replaceFirst, found]
  | @many first second rest twice =>
    obtain ⟨message, isMessage⟩ := Option.isSome_iff_exists.mp
      (isSome_manyMatchesMessage content (first :: second :: rest))
    simp only [isMessage]
    exact Or.inl ⟨message, rfl, Or.inr twice⟩

/-- The text occurs in one place and in no other. -/
def OccursOnce (content before : List Char) : Prop :=
  ∃ place, ∀ other, OccursAt content before other ↔ other = place

/-- What an edit is for: it is applied where the text occurs once, it puts the new text in its
place, and otherwise nothing is written. -/
structure EditsUnique (content before after : List Char) : Prop where
  applies : (∃ result, stringReplace content before after = some (.ok result)) ↔
    OccursOnce content before
  replaces : OccursOnce content before → ∀ front behind, content = front ++ (before ++ behind) →
    stringReplace content before after = some (.ok (front ++ (after ++ behind)))
  returns : ∀ path write, ∃ written result,
    fileEdit ⟨.ok content, write⟩ path before after = some (written, result) ∧
      (written.isSome = true → OccursOnce content before)

theorem not_occursOnce {first second : Nat} (occursFirst : OccursAt content before first)
    (occursSecond : OccursAt content before second) (less : first < second) :
    ¬OccursOnce content before := by
  rintro ⟨place, only⟩
  have isFirst := (only first).mp occursFirst
  have isSecond := (only second).mp occursSecond
  omega

theorem occursAt_front (front before behind : List Char) :
    OccursAt (front ++ (before ++ behind)) before front.length :=
  ⟨front, behind, rfl, rfl⟩

section Unique

variable {content before : List Char}
  (apart : ∀ first second, OccursAt content before first → OccursAt content before second →
    first < second → TwiceApart content before)

include apart

/-- An occurrence without a second one that is apart is the only one. -/
theorem occursOnce_of_not_twiceApart (notTwice : ¬TwiceApart content before) {place : Nat}
    (occurs : OccursAt content before place) : OccursOnce content before := by
  refine ⟨place, fun other => ?_⟩
  constructor
  · intro occursOther
    rcases Nat.lt_trichotomy other place with earlier | isPlace | later
    · exact absurd (apart other place occursOther occurs earlier) notTwice
    · exact isPlace
    · exact absurd (apart place other occurs occursOther later) notTwice
  · rintro rfl
    exact occurs

theorem occursOnce_of_ok {after result : List Char}
    (replaced : stringReplace content before after = some (.ok result)) :
    OccursOnce content before := by
  rcases stringReplace_cases content before after with
    ⟨message, isError, -⟩ | ⟨front, behind, -, rfl, notTwice⟩
  · rw [isError] at replaced
    cases replaced
  · exact occursOnce_of_not_twiceApart apart notTwice (occursAt_front front before behind)

end Unique

/-- A text that occurs once is replaced where it occurs. -/
theorem stringReplace_of_occursOnce (after : List Char) (once : OccursOnce content before)
    {front behind : List Char} (isContent : content = front ++ (before ++ behind)) :
    stringReplace content before after = some (.ok (front ++ (after ++ behind))) := by
  obtain ⟨place, only⟩ := once
  have occurs : OccursAt content before front.length := ⟨front, behind, isContent, rfl⟩
  rcases stringReplace_cases content before after with
    ⟨message, -, absent | ⟨first, second, occursFirst, occursSecond, less, -⟩⟩ |
      ⟨left, right, replaced, isOther, -⟩
  · exact absurd occurs (absent front.length)
  · exact absurd ⟨place, only⟩ (not_occursOnce occursFirst occursSecond less)
  · have isLeft := (only left.length).mp ⟨left, right, isOther, rfl⟩
    have isFront := (only front.length).mp occurs
    obtain ⟨rfl, others⟩ := append_inj (isOther.symm.trans isContent) (isLeft.trans isFront.symm)
    obtain rfl := append_cancel_left others
    exact replaced

/-- The tool returns on every content, and it writes where the text is replaced. -/
theorem fileEdit_of_stringReplace {after : List Char} {replaced : Except (List Char) (List Char)}
    (isReplaced : stringReplace content before after = some replaced) (path : List Char)
    (write : List Char → Except (List Char) Unit) :
    ∃ result, fileEdit ⟨.ok content, write⟩ path before after =
      some (replaced.toOption, result) := by
  simp only [fileEdit, isReplaced]
  cases replaced with
  | error message => exact ⟨_, rfl⟩
  | ok newContent => exact ⟨_, rfl⟩

/-- A file is edited where the text is unique if and only if a text that occurs twice also
occurs in two places that do not overlap. -/
theorem editsUnique_iff (content before after : List Char) : EditsUnique content before after ↔
      ∀ first second, OccursAt content before first → OccursAt content before second →
        first < second → TwiceApart content before := by
  constructor
  · intro edits first second occursFirst occursSecond less
    rcases stringReplace_cases content before after with
      ⟨message, -, absent | twice⟩ | ⟨front, behind, replaced, -, -⟩
    · exact absurd occursFirst (absent first)
    · exact twice
    · have once := edits.applies.mp ⟨_, replaced⟩
      exact absurd once (not_occursOnce occursFirst occursSecond less)
  · intro apart
    have replaces : OccursOnce content before → ∀ front behind,
        content = front ++ (before ++ behind) →
        stringReplace content before after = some (.ok (front ++ (after ++ behind))) :=
      fun once front behind isContent => stringReplace_of_occursOnce after once isContent
    constructor
    · constructor
      · rintro ⟨result, replaced⟩
        exact occursOnce_of_ok apart replaced
      · intro once
        obtain ⟨place, only⟩ := once
        obtain ⟨front, behind, isContent, -⟩ := (only place).mpr rfl
        exact ⟨_, replaces ⟨place, only⟩ front behind isContent⟩
    · exact replaces
    · intro path write
      rcases stringReplace_cases content before after with
        ⟨message, isError, -⟩ | ⟨front, behind, replaced, -, -⟩
      · obtain ⟨result, edited⟩ := fileEdit_of_stringReplace isError path write
        refine ⟨_, result, edited, fun isWritten => ?_⟩
        cases isWritten
      · obtain ⟨result, edited⟩ := fileEdit_of_stringReplace replaced path write
        exact ⟨_, result, edited, fun _ => occursOnce_of_ok apart replaced⟩

/-- In `aaa` the text `aa` occurs twice, and the edit is made. -/
theorem not_editsUnique_overlapping : ¬EditsUnique "aaa".toList "aa".toList "b".toList := by
  intro edits
  have once := edits.applies.mp ⟨"ba".toList, by decide⟩
  have atFront : OccursAt "aaa".toList "aa".toList 0 := occursAt_front [] "aa".toList "a".toList
  have atBack : OccursAt "aaa".toList "aa".toList 1 := occursAt_front "a".toList "aa".toList []
  exact not_occursOnce atFront atBack (by decide) once

end Obelus.Agent.FileEdit
