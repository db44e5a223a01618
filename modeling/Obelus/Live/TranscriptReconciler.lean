import Mathlib.Algebra.Order.Field.Rat
import Mathlib.Data.List.Sort
import Obelus.Data.JsMap
import Obelus.Live.Types

/-!
# Merging transcript turns

Turns are merged by their provider identity, ordered by time, and turns of one
source that repeat a turn of the other source are dropped as bleed.
-/

namespace Obelus.Live

open Obelus.Data List

/-- One iteration of the first loop of `mergeTurnsDeterministically`. -/
def keepNewest (unique : JsMap String TranscriptTurn) (turn : TranscriptTurn) :
    JsMap String TranscriptTurn :=
  let key := turn.providerSessionId ++ ":" ++ turn.providerTurnId
  match unique.get? key with
  | none => unique.set key turn
  | some previous => if turn.revision > previous.revision then unique.set key turn else unique

/-- The comparison by which merged turns are ordered. -/
def compareMergedTurns (host : Host) (left right : TranscriptTurn) : Number :=
  if left.startMs ≠ right.startMs then left.startMs - right.startMs
  else if left.endMs ≠ right.endMs then left.endMs - right.endMs
  else
    let leftFirstSeen := left.finalizedAtMs.getD left.receivedAtMs
    let rightFirstSeen := right.finalizedAtMs.getD right.receivedAtMs
    if leftFirstSeen ≠ rightFirstSeen then leftFirstSeen - rightFirstSeen
    else host.localeCompare left.id right.id

def mergeTurnsDeterministically (host : Host) (turns : List TranscriptTurn) :
    List TranscriptTurn :=
  (turns.foldl keepNewest JsMap.empty).values.insertionSort fun left right =>
    compareMergedTurns host left right ≤ 0

/-- The words of a text: its maximal runs of letters, numbers and the kept
punctuation. -/
def normalizedTokens (host : Host) (text : String) : List String :=
  let kept (c : Char) : Bool := host.isLetterOrNumber c || c ∈ ['%', '$', '.', '-']
  let runs := (host.toLocaleLowerCase text).toList.splitOnP fun c => !kept c
  (runs.filter fun run => !run.isEmpty).map String.ofList

def likelyBleedDuplicate (host : Host) (left right : TranscriptTurn) : Bool :=
  if left.sourceKind = right.sourceKind || left.sourceKind = .mixed ||
      right.sourceKind = .mixed then false
  else
    let overlap := min left.endMs right.endMs - max left.startMs right.startMs
    if overlap ≤ 0 then false
    else
      let shorterDuration :=
        max 1 (min (left.endMs - left.startMs) (right.endMs - right.startMs))
      if overlap / shorterDuration < 75 / 100 then false
      else
        let leftTokens := (normalizedTokens host left.text).dedup
        let rightTokens := (normalizedTokens host right.text).dedup
        if leftTokens.isEmpty || rightTokens.isEmpty then false
        else
          let intersection := leftTokens.filter (· ∈ rightTokens)
          (intersection.length : ℚ) / min leftTokens.length rightTokens.length ≥ 85 / 100

/-- The inner loop of `deduplicateSourceBleed`: the later turns that repeat
`left`, up to the first one that starts after it. -/
def removeBleed (host : Host) (left : TranscriptTurn) :
    List TranscriptTurn → JsSet String → JsSet String
  | [], removed => removed
  | right :: rest, removed =>
    if right.startMs > left.endMs then removed
    else if !likelyBleedDuplicate host left right then removeBleed host left rest removed
    else removeBleed host left rest (removed.add right.id)

/-- The outer loop of `deduplicateSourceBleed`. -/
def removedTurnIds (host : Host) : List TranscriptTurn → JsSet String → JsSet String
  | [], removed => removed
  | left :: rest, removed =>
    if removed.has left.id then removedTurnIds host rest removed
    else removedTurnIds host rest (removeBleed host left rest removed)

def deduplicateSourceBleed (host : Host) (turns : List TranscriptTurn) : List TranscriptTurn :=
  let ordered := mergeTurnsDeterministically host turns
  let removed := removedTurnIds host ordered JsSet.empty
  ordered.filter fun turn => !removed.has turn.id

section Merge

variable {host : Host} {turns : List TranscriptTurn}

/-- The key under which the provider knows a turn. -/
def turnKey (turn : TranscriptTurn) : String :=
  transcriptTurnKey turn.providerSessionId turn.providerTurnId

/-- Turns with new and distinct keys are all kept. -/
theorem foldl_keepNewest_values {unique : JsMap String TranscriptTurn}
    (nodup : (turns.map turnKey).Nodup)
    (absent : ∀ turn ∈ turns, unique.get? (turnKey turn) = none) :
    (turns.foldl keepNewest unique).values = unique.values ++ turns := by
  induction turns generalizing unique with
  | nil => simp
  | cons turn rest ih =>
    have parts := nodup_cons.mp nodup
    have fresh : unique.get? (turnKey turn) = none := absent turn mem_cons_self
    have kept : keepNewest unique turn = unique.set (turnKey turn) turn := by
      unfold keepNewest
      dsimp only
      rw [show unique.get? (turn.providerSessionId ++ ":" ++ turn.providerTurnId) = none from fresh]
      rfl
    have absentRest : ∀ other ∈ rest,
        (unique.set (turnKey turn) turn).get? (turnKey other) = none := by
      intro other member
      have differ : turnKey other ≠ turnKey turn := by
        intro same
        exact parts.1 (same ▸ mem_map_of_mem (f := turnKey) member)
      exact (JsMap.get?_set_of_ne unique differ turn).trans
        (absent other (mem_cons_of_mem _ member))
    rw [foldl_cons, kept, ih parts.2 absentRest, JsMap.values_set_of_absent fresh,
      append_assoc, singleton_append]

theorem removeBleed_of_distinct {left : TranscriptTurn} (removed : JsSet String)
    (distinct : ∀ right ∈ turns, likelyBleedDuplicate host left right = false) :
    removeBleed host left turns removed = removed := by
  induction turns with
  | nil => rfl
  | cons right rest ih =>
    have head := distinct right mem_cons_self
    have tail := ih fun other member => distinct other (mem_cons_of_mem _ member)
    simp [removeBleed, head, tail]

theorem removedTurnIds_of_distinct {removed : JsSet String}
    (distinct : ∀ left ∈ turns, ∀ right ∈ turns, likelyBleedDuplicate host left right = false) :
    removedTurnIds host turns removed = removed := by
  induction turns with
  | nil => rfl
  | cons left rest ih =>
    have head := removeBleed_of_distinct removed
      fun right member => distinct left mem_cons_self right (mem_cons_of_mem _ member)
    have tail := ih fun first firstMem second secondMem =>
      distinct first (mem_cons_of_mem _ firstMem) second (mem_cons_of_mem _ secondMem)
    simp [removedTurnIds, head, tail]

/-- Without bleed, deduplication only reorders turns with distinct keys. -/
theorem deduplicateSourceBleed_perm (nodup : (turns.map turnKey).Nodup)
    (distinct : ∀ left ∈ turns, ∀ right ∈ turns, likelyBleedDuplicate host left right = false) :
    (deduplicateSourceBleed host turns).Perm turns := by
  have perm : (mergeTurnsDeterministically host turns).Perm turns := by
    unfold mergeTurnsDeterministically
    rw [foldl_keepNewest_values nodup fun _ _ => rfl]
    exact perm_insertionSort _ _
  have unremoved : removedTurnIds host (mergeTurnsDeterministically host turns) JsSet.empty =
      JsSet.empty :=
    removedTurnIds_of_distinct fun left leftMem right rightMem =>
      distinct left (perm.mem_iff.mp leftMem) right (perm.mem_iff.mp rightMem)
  unfold deduplicateSourceBleed
  simp only [unremoved, JsSet.has, JsSet.not_mem_empty, decide_false, Bool.not_false, filter_true]
  exact perm

end Merge

end Obelus.Live
