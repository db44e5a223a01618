import Mathlib.Data.List.Sort
import Obelus.Data.JsMap
import Obelus.Data.Text
import Obelus.Live.Types

/-!
# Anchoring a manual selection

A selected text is looked for in the turns around the one it was selected in: in the turn
alone, then with one and with two neighbours.  It is found where exactly one run of the
smallest size that holds it holds it once, as whole words.
-/

namespace Obelus.Live.ManualSelection

open Obelus.Data
open List hiding lookup
open CodeUnits (collapseFrom isSpace trim units)

/-- The functions over the tables of characters.  `spaced` puts a space for each run of
punctuation and symbols, and `lettersOf` keeps letters, numbers and `&`. -/
structure TextHost where
  nfkc : CodeUnits → CodeUnits
  toLocaleLowerCase : CodeUnits → CodeUnits
  spaced : CodeUnits → CodeUnits
  lettersOf : CodeUnits → CodeUnits
  localeCompare : String → String → Int

structure LiveSelectionRequest where
  text : CodeUnits
  anchor : Option (Number × Number)

/-- The turns of the artifact, if there is one, and the active turns. -/
structure SelectionState where
  artifactTurns : List TranscriptTurn
  activeTurns : List TranscriptTurn

structure TranscriptSelectionFactCheckInput where
  text : CodeUnits
  turnIds : List String
  speakerId : Option String
  startMs : Number
  endMs : Number
  nearbyContext : CodeUnits
  anchor : Number × Number

section Host

variable (host : TextHost)

def normalizeManualSelection (selection : CodeUnits) (maxCharacters : Nat) : CodeUnits :=
  (trim (collapseFrom false (host.nfkc selection))).take maxCharacters

def canonicalSelectionText (value : CodeUnits) : CodeUnits :=
  let lower := host.toLocaleLowerCase (normalizeManualSelection host value 20000)
  let worded := lower.flatMap fun unit => if unit = 0x26 then units " and " else [unit]
  trim (collapseFrom false (host.spaced worded))

def boundaryToken (value : CodeUnits) : CodeUnits :=
  host.lettersOf (host.toLocaleLowerCase (host.nfkc value))

/-- `trim().split(/\s+/u)`, which has one empty word for a blank text. -/
def fragmentWords (text : CodeUnits) : List CodeUnits :=
  match wordsAt isSpace text with
  | [] => [[]]
  | words => words

/-- The last words of the left text and the first of the right one are the same. -/
def overlaps (leftWords rightWords : List CodeUnits) (size : Nat) : Bool :=
  let leftBoundary := (leftWords.drop (leftWords.length - size)).map (boundaryToken host)
  let rightBoundary := (rightWords.take size).map (boundaryToken host)
  leftBoundary = rightBoundary && leftBoundary.all (!·.isEmpty)

def joinTranscriptFragments (left right : CodeUnits) : CodeUnits :=
  let leftWords := fragmentWords left
  let rightWords := fragmentWords right
  let maxOverlap := min 8 (min leftWords.length rightWords.length)
  let overlap :=
    ((range' 1 maxOverlap).reverse.find? (overlaps host leftWords rightWords)).getD 0
  trim (joinWords 0x20 (leftWords ++ rightWords.drop overlap))

/-- The text of a run of turns. -/
def joinedText (turns : List TranscriptTurn) : CodeUnits :=
  (turns.map fun turn => units turn.text).foldl (joinTranscriptFragments host) []

/-- The loop finds every place at which the padded needle stands, one after another. -/
def contiguousOccurrenceCount (haystack needle : CodeUnits) : Nat :=
  ((0x20 :: haystack ++ [0x20]).tails.filter fun behind =>
    (0x20 :: needle ++ [0x20]).isPrefixOf behind).length

def compareTurns (left right : TranscriptTurn) : Number :=
  if left.startMs ≠ right.startMs then left.startMs - right.startMs
  else if left.providerTurnOrder ≠ right.providerTurnOrder then
    left.providerTurnOrder - right.providerTurnOrder
  else host.localeCompare left.id right.id

/-- The turns of the anchor's transcript version in their order. -/
def orderedTurns (turnsById : JsMap String TranscriptTurn) (anchorTurn : TranscriptTurn) :
    List TranscriptTurn :=
  (turnsById.values.filter fun turn =>
    turn.transcriptVersionId = anchorTurn.transcriptVersionId ∧ turn.status ≠ .partialText)
      |>.insertionSort fun left right => compareTurns host left right ≤ 0

/-- What is looked for, and the turns around the anchor's. -/
structure Search where
  selectedText : CodeUnits
  anchor : Number × Number
  anchorTurnId : String
  turns : List TranscriptTurn
  anchorIndex : Nat
  anchorAt : (turns.findIdx? fun turn => turn.id = anchorTurnId) = some anchorIndex

/-- Everything before the runs are looked at; `turnIdAt` reads the document. -/
def search (turnIdAt : Number × Number → Option String) (selection : LiveSelectionRequest)
    (state : SelectionState) : Option Search := do
  let selectedText := normalizeManualSelection host selection.text 2000
  let anchor ← if canonicalSelectionText host selectedText = [] then none else selection.anchor
  let anchorTurnId ← turnIdAt anchor
  let turnsById := JsMap.ofEntries
    ((state.artifactTurns ++ state.activeTurns).map fun turn => (turn.id, turn))
  let anchorTurn ← turnsById.get? anchorTurnId
  if anchorTurn.status = .partialText then none
  else
    let turns := orderedTurns host turnsById anchorTurn
    match anchorAt : turns.findIdx? fun turn => turn.id = anchorTurnId with
    | none => none
    | some anchorIndex => some { selectedText, anchor, anchorTurnId, turns, anchorIndex, anchorAt }

def Search.run (search : Search) (size start : Nat) : List TranscriptTurn :=
  (search.turns.drop start).take size

/-- Where the runs of a size begin that have the anchor and hold the selection once. -/
def starts (search : Search) (size : Nat) : List Nat :=
  let firstStart := search.anchorIndex + 1 - size
  let afterStart := min (search.anchorIndex + 1) (search.turns.length + 1 - size)
  (range' firstStart (afterStart - firstStart)).filter fun start =>
    ((search.run size start).any fun turn => turn.id = search.anchorTurnId) &&
    contiguousOccurrenceCount
      (canonicalSelectionText host (joinedText host (search.run size start)))
      (canonicalSelectionText host search.selectedText) = 1

def candidates (search : Search) (size : Nat) : List (List TranscriptTurn) :=
  (starts host search size).map (search.run size)

/-- The candidates of the first size that has any. -/
def firstCandidates (search : Search) : List Nat → List (List TranscriptTurn)
  | [] => []
  | size :: sizes =>
    match candidates host search size with
    | [] => firstCandidates search sizes
    | found => found

def inputOf (search : Search) (turns : List TranscriptTurn) : TranscriptSelectionFactCheckInput :=
  let speakers := ((turns.filterMap TranscriptTurn.speakerId).filter (!·.isEmpty)).dedup
  { text := search.selectedText
    turnIds := turns.map TranscriptTurn.id
    speakerId := if speakers.length = 1 then turns.head?.bind TranscriptTurn.speakerId else none
    startMs := ((turns.map TranscriptTurn.startMs).min?).getD 0
    endMs := ((turns.map TranscriptTurn.endMs).max?).getD 0
    nearbyContext := normalizeManualSelection host (joinedText host turns) 20000
    anchor := search.anchor }

def transcriptSelectionFactCheckInputAtAnchor (turnIdAt : Number × Number → Option String)
    (selection : LiveSelectionRequest) (state : SelectionState) :
    Option TranscriptSelectionFactCheckInput := do
  let search ← search host turnIdAt selection state
  match firstCandidates host search [1, 2, 3] with
  | [turns] => return inputOf host search turns
  | _ => none

/-- A run of turns with the anchor, in which the selection stands once as whole words. -/
def Holds (search : Search) (size start : Nat) : Prop :=
  start ≤ search.anchorIndex ∧ search.anchorIndex < start + size ∧
    start + size ≤ search.turns.length ∧
    contiguousOccurrenceCount
      (canonicalSelectionText host (joinedText host (search.run size start)))
      (canonicalSelectionText host search.selectedText) = 1

/-- The run is the only one of its size, and there is none of a smaller size. -/
def HoldsAlone (search : Search) (size start : Nat) : Prop :=
  Holds host search size start ∧ (∀ other, Holds host search size other → other = start) ∧
    ∀ smaller < size, ∀ other, ¬Holds host search smaller other

end Host

variable {host : TextHost} {search : Search} {size start : Nat}

/-- A run around the anchor's index has the anchor. -/
theorem any_run (before : start ≤ search.anchorIndex) (behind : search.anchorIndex < start + size) :
    ((search.run size start).any fun turn => turn.id = search.anchorTurnId) = true := by
  obtain ⟨inside, isAnchor, -⟩ := findIdx?_eq_some_iff_getElem.mp search.anchorAt
  apply any_eq_true.mpr
  refine ⟨search.turns[search.anchorIndex], ?_, isAnchor⟩
  rw [Search.run, mem_take_iff_getElem]
  refine ⟨search.anchorIndex - start, by rw [length_drop]; omega, ?_⟩
  simp [Nat.add_sub_cancel' before]

theorem mem_starts_iff : start ∈ starts host search size ↔ Holds host search size start := by
  simp only [starts, mem_filter, mem_range'_1, Bool.and_eq_true, decide_eq_true_eq]
  constructor
  · rintro ⟨bounds, -, once⟩
    exact ⟨by omega, by omega, by omega, once⟩
  · rintro ⟨before, behind, inside, once⟩
    exact ⟨by omega, any_run before behind, once⟩

theorem candidates_eq_nil_iff :
    candidates host search size = [] ↔ ∀ start, ¬Holds host search size start := by
  rw [candidates, map_eq_nil_iff, eq_nil_iff_forall_not_mem]
  simp [mem_starts_iff]

theorem candidates_eq_singleton_iff {turns : List TranscriptTurn} :
    candidates host search size = [turns] ↔ ∃ start, Holds host search size start ∧
      (∀ other, Holds host search size other → other = start) ∧
        turns = search.run size start := by
  have nodup : (starts host search size).Nodup := (nodup_range' ..).filter _
  rw [candidates, map_eq_singleton_iff]
  refine exists_congr fun start => ?_
  rw [← perm_singleton, perm_ext_iff_of_nodup nodup (nodup_singleton start)]
  simp only [mem_starts_iff, mem_singleton]
  constructor
  · rintro ⟨same, rfl⟩
    exact ⟨(same start).mpr rfl, fun other => (same other).mp, rfl⟩
  · rintro ⟨holds, only, rfl⟩
    exact ⟨fun other => ⟨only other, fun isStart => isStart ▸ holds⟩, rfl⟩

/-- The sizes are tried from the smallest on. -/
theorem firstCandidates_range'_iff {turns : List TranscriptTurn} (first count : Nat) :
    firstCandidates host search (range' first count) = [turns] ↔
      ∃ size, first ≤ size ∧ size < first + count ∧ candidates host search size = [turns] ∧
        ∀ smaller, first ≤ smaller → smaller < size → candidates host search smaller = [] := by
  induction count generalizing first with
  | zero => simp [firstCandidates]; omega
  | succ count ih =>
    rw [range'_succ, firstCandidates]
    cases found : candidates host search first with
    | nil =>
      rw [ih]
      constructor
      · rintro ⟨size, after, bound, isFound, none⟩
        refine ⟨size, by omega, by omega, isFound, fun smaller from_ below => ?_⟩
        rcases Nat.eq_or_lt_of_le from_ with rfl | later
        · exact found
        · exact none smaller later below
      · rintro ⟨size, after, bound, isFound, none⟩
        rcases Nat.eq_or_lt_of_le after with rfl | later
        · rw [found] at isFound
          cases isFound
        · exact ⟨size, later, by omega, isFound, fun smaller from_ => none smaller (by omega)⟩
    | cons candidate rest =>
      constructor
      · intro isFound
        exact ⟨first, le_refl _, by omega, found.trans isFound, fun smaller _ _ => by omega⟩
      · rintro ⟨size, after, -, isFound, none⟩
        rcases Nat.eq_or_lt_of_le after with rfl | later
        · exact found.symm.trans isFound
        · rw [none first (le_refl _) later] at found
          cases found

/-- What is returned is made of the run that alone holds the selection, and nothing is returned
where there is no such run. -/
theorem selection_anchored (host : TextHost) (turnIdAt : Number × Number → Option String)
    (selection : LiveSelectionRequest) (state : SelectionState)
    (input : TranscriptSelectionFactCheckInput) :
    transcriptSelectionFactCheckInputAtAnchor host turnIdAt selection state = some input ↔
      ∃ search, ManualSelection.search host turnIdAt selection state = some search ∧
        ∃ size start, 1 ≤ size ∧ size ≤ 3 ∧ HoldsAlone host search size start ∧
          input = inputOf host search (search.run size start) := by
  unfold transcriptSelectionFactCheckInputAtAnchor
  rw [Option.bind_eq_bind, Option.bind_eq_some_iff]
  refine exists_congr fun search => and_congr_right fun _ => ?_
  have sizes : [1, 2, 3] = range' 1 3 := rfl
  have returns : (match firstCandidates host search [1, 2, 3] with
      | [turns] => some (inputOf host search turns)
      | _ => none) = some input ↔ ∃ turns, firstCandidates host search [1, 2, 3] = [turns] ∧
        input = inputOf host search turns := by
    rcases firstCandidates host search [1, 2, 3] with _ | ⟨turns, _ | ⟨next, rest⟩⟩ <;>
      simp [eq_comm]
  refine returns.trans ?_
  simp only [sizes, firstCandidates_range'_iff, candidates_eq_singleton_iff,
    candidates_eq_nil_iff, HoldsAlone]
  constructor
  · rintro ⟨_, ⟨size, after, bound, ⟨start, holds, only, rfl⟩, none⟩, rfl⟩
    refine ⟨size, start, after, by omega, ⟨holds, only, fun smaller below other isOther => ?_⟩, rfl⟩
    exact none smaller (by have := isOther.1; have := isOther.2.1; omega) below other isOther
  · rintro ⟨size, start, after, bound, ⟨holds, only, none⟩, rfl⟩
    exact ⟨_, ⟨size, after, by omega, ⟨start, holds, only, rfl⟩,
      fun smaller _ below => none smaller below⟩, rfl⟩

/-- Texts that need no folding. -/
def plainHost : TextHost where
  nfkc := id
  toLocaleLowerCase := id
  spaced := id
  lettersOf := id
  localeCompare := recordedHost.localeCompare

/-- The words of the first two turns come again in the third. -/
def repeatedTurns : List TranscriptTurn :=
  [{ recordedTurn with id := "turn-1", text := "a" },
    { recordedTurn with id := "turn-2", startMs := 1000, text := "b" },
    { recordedTurn with id := "turn-3", startMs := 2000, text := "a b a b" }]

/-- The first two turns are returned, although the last two have the selection as well. -/
theorem selection_repeated :
    (transcriptSelectionFactCheckInputAtAnchor plainHost (fun _ => some "turn-2")
      ⟨units "a b", some (0, 0)⟩ ⟨[], repeatedTurns⟩).map (·.turnIds) =
        some ["turn-1", "turn-2"] ∧
      contiguousOccurrenceCount
        (canonicalSelectionText plainHost (joinedText plainHost (repeatedTurns.drop 1)))
        (canonicalSelectionText plainHost (units "a b")) = 2 := by
  decide +kernel

end Obelus.Live.ManualSelection
