import Obelus.Live.BleedOrder

/-!
# The context of a claim batch

The turns of a batch are read together with the fragments around them: each batch turn with
a window of its run of adjacent fragments.
-/

namespace Obelus.Live.ClaimContext

open Obelus.Data
open List hiding lookup lookup_append getElem?_eq_some_iff

def maxReconstructedTurnChain : Nat := 3

/-- `sentenceBoundaryPattern`. -/
def endsSentence (text : String) : Bool :=
  let isEnd := fun c => ['.', '!', '?'].contains c
  match text.toList.reverse with
  | [] => false
  | last :: rest => isEnd last || (['"', '\'', ')', ']'].contains last && rest.head?.any isEnd)

def compareTurns (host : Host) : ClaimGateTurnSnapshot → ClaimGateTurnSnapshot → Number :=
  byKey ClaimGateTurnSnapshot.startMs <| byKey ClaimGateTurnSnapshot.endMs fun left right =>
    host.localeCompare left.id right.id

def orderedTurns (host : Host) (turns : List ClaimGateTurnSnapshot) : List ClaimGateTurnSnapshot :=
  (JsMap.ofEntries (turns.map fun turn => (turn.id, turn))).values.insertionSort
    fun left right => compareTurns host left right ≤ 0

def fragmentsAreAdjacent (left right : ClaimGateTurnSnapshot) : Bool :=
  !endsSentence (trim left.text) && right.startMs - left.endMs ≤ 2500 &&
    left.sourceKind = right.sourceKind &&
      (left.speakerId.getD "" = "" || right.speakerId.getD "" = "" ||
        left.speakerId = right.speakerId)

section Window

variable (ordered : List ClaimGateTurnSnapshot)

/-- The turn at an index and the one behind it are adjacent. -/
def adjacentAt (index : Nat) : Bool :=
  match ordered[index]?, ordered[index + 1]? with
  | some left, some right => fragmentsAreAdjacent left right
  | _, _ => false

def componentStart : Nat → Nat
  | 0 => 0
  | index + 1 => if adjacentAt ordered index then componentStart index else index + 1

def componentEnd (index : Nat) : Nat :=
  if index + 1 < ordered.length && adjacentAt ordered index then componentEnd (index + 1)
  else index
termination_by ordered.length - index
decreasing_by simp_all; omega

/-- The turns from `windowStart` to `windowEnd`. -/
def window (seedIndex : Nat) : List ClaimGateTurnSnapshot :=
  let last := componentEnd ordered seedIndex
  let windowStart := max (componentStart ordered seedIndex)
    (min (seedIndex - (maxReconstructedTurnChain - 1) / 2) (last + 1 - maxReconstructedTurnChain))
  let windowEnd := min last (windowStart + maxReconstructedTurnChain - 1)
  (ordered.drop windowStart).take (windowEnd + 1 - windowStart)

end Window

def expandLocalClaimContext (host : Host) (batchTurns availableTurns : List ClaimGateTurnSnapshot) :
    List ClaimGateTurnSnapshot :=
  let ordered := orderedTurns host (availableTurns ++ batchTurns)
  let batchIds := batchTurns.map ClaimGateTurnSnapshot.id
  let included := batchIds ++ ordered.zipIdx.flatMap fun (seed, seedIndex) =>
    if batchIds.contains seed.id then (window ordered seedIndex).map ClaimGateTurnSnapshot.id
    else []
  ordered.filter fun turn => included.contains turn.id

/-- The last turns of a batch with their ids. -/
def latest (batch : List ClaimGateTurnSnapshot) : List ClaimGateTurnSnapshot :=
  batch.filter fun turn => lookup ClaimGateTurnSnapshot.id batch.reverse turn.id = some turn

/-- The context holds `own` in the order of the turns, and besides only turns near the batch. -/
structure AddsNearby (host : Host) (own batch available : List ClaimGateTurnSnapshot) : Prop where
  sorted : (expandLocalClaimContext host batch available).Pairwise
    fun left right => compareTurns host left right ≤ 0
  ids : ((expandLocalClaimContext host batch available).map ClaimGateTurnSnapshot.id).Nodup
  contains : own ⊆ expandLocalClaimContext host batch available
  nearby : ∀ turn ∈ expandLocalClaimContext host batch available,
    ∃ run, run <:+: orderedTurns host (available ++ batch) ∧ run.length ≤ 3 ∧ turn ∈ run ∧
      (∃ seed ∈ run, seed ∈ batch) ∧ run.IsChain fun left right => fragmentsAreAdjacent left right

variable {host : Host} {ordered turns batch : List ClaimGateTurnSnapshot} {index place : Nat}

theorem componentStart_le : componentStart ordered index ≤ index := by
  induction index with
  | zero => exact Nat.le_refl 0
  | succ index ih =>
    rw [componentStart]
    split
    · exact ih.trans index.le_succ
    · exact Nat.le_refl _

theorem adjacentAt_of_componentStart (behind : componentStart ordered index ≤ place)
    (before : place < index) : adjacentAt ordered place = true := by
  induction index with
  | zero => exact absurd before place.not_lt_zero
  | succ index ih =>
    rw [componentStart] at behind
    split at behind
    · next adjacent =>
      rcases Nat.lt_succ_iff_lt_or_eq.mp before with earlier | rfl
      · exact ih behind earlier
      · exact adjacent
    · exact absurd before behind.not_gt

theorem le_componentEnd : index ≤ componentEnd ordered index := by
  fun_induction componentEnd ordered index with
  | case1 index _ ih => exact index.le_succ.trans ih
  | case2 index _ => exact Nat.le_refl index

theorem adjacentAt_of_componentEnd (behind : index ≤ place)
    (before : place < componentEnd ordered index) : adjacentAt ordered place = true := by
  fun_induction componentEnd ordered index with
  | case1 index goesOn ih =>
    simp only [Bool.and_eq_true] at goesOn
    rcases Nat.eq_or_lt_of_le behind with rfl | later
    · exact goesOn.2
    · exact ih later before
  | case2 index _ => exact absurd behind before.not_ge

/-- A window is a run of at most three adjacent turns around its seed. -/
theorem window_spec (isIn : index < ordered.length) : window ordered index <:+: ordered ∧
      (window ordered index).length ≤ 3 ∧ ordered[index] ∈ window ordered index ∧
        (window ordered index).IsChain fun left right => fragmentsAreAdjacent left right := by
  have start := @componentStart_le ordered index
  have toEnd := @le_componentEnd ordered index
  unfold window
  simp only [maxReconstructedTurnChain]
  generalize isStart : max (componentStart ordered index) _ = windowStart
  refine ⟨(List.take_prefix _ _).isInfix.trans (drop_suffix _ _).isInfix, ?_, ?_, ?_⟩
  · rw [length_take]
    omega
  · rw [mem_iff_getElem]
    refine ⟨index - windowStart, ?_, ?_⟩
    · simp only [length_take, length_drop]
      omega
    · simp only [getElem_take, getElem_drop]
      congr 1
      omega
  · rw [isChain_iff_getElem]
    intro place isPlace
    simp only [length_take, length_drop] at isPlace
    have adjacent : adjacentAt ordered (windowStart + place) = true := by
      rcases Nat.lt_or_ge (windowStart + place) index with before | behind
      · apply adjacentAt_of_componentStart _ before
        omega
      · apply adjacentAt_of_componentEnd behind
        omega
    rw [adjacentAt, getElem?_eq_getElem (by omega), getElem?_eq_getElem (by omega)] at adjacent
    simpa [Nat.add_assoc] using adjacent

theorem mem_orderedTurns {turn : ClaimGateTurnSnapshot} : turn ∈ orderedTurns host turns ↔
      lookup ClaimGateTurnSnapshot.id turns.reverse turn.id = some turn :=
  (perm_insertionSort _ _).mem_iff.trans JsMap.mem_values_ofElements

theorem nodup_ids_orderedTurns :
    ((orderedTurns host turns).map ClaimGateTurnSnapshot.id).Nodup :=
  ((perm_insertionSort _ _).map _).nodup_iff.mpr JsMap.nodup_values_ofElements

/-- A batch turn is kept before an available turn with its id. -/
theorem mem_orderedTurns_iff_latest {turn : ClaimGateTurnSnapshot}
    {available : List ClaimGateTurnSnapshot} (isId : turn.id ∈ batch.map ClaimGateTurnSnapshot.id) :
    turn ∈ orderedTurns host (available ++ batch) ↔ turn ∈ latest batch := by
  obtain ⟨other, member, same⟩ := mem_map.mp isId
  obtain ⟨kept, found⟩ :
      ∃ kept, lookup ClaimGateTurnSnapshot.id batch.reverse other.id = some kept :=
    exists_lookup_of_mem (mem_reverse.mpr member)
  rw [mem_orderedTurns, reverse_append, lookup_append, latest, mem_filter, decide_eq_true_iff,
    ← same, found]
  constructor
  · intro isTurn
    cases isTurn
    exact ⟨mem_reverse.mp (lookup_eq_some found).1, rfl⟩
  · exact And.right

theorem addsNearby (host : Host) (collates : host.Collates)
    (batch available : List ClaimGateTurnSnapshot) :
    AddsNearby host (latest batch) batch available := by
  have isBatch {turn : ClaimGateTurnSnapshot}
      (member : turn ∈ orderedTurns host (available ++ batch))
      (isId : turn.id ∈ batch.map ClaimGateTurnSnapshot.id) : turn ∈ batch :=
    (mem_filter.mp ((mem_orderedTurns_iff_latest isId).mp member)).1
  constructor
  · have compares : Compares (compareTurns host) := ((collates.compares _).byKey _).byKey _
    exact (compares.pairwise_insertionSort _).sublist filter_sublist
  · exact (filter_sublist.map _).nodup nodup_ids_orderedTurns
  · intro turn isLatest
    have isId := mem_map_of_mem (f := ClaimGateTurnSnapshot.id) (mem_filter.mp isLatest).1
    apply mem_filter.mpr
    exact ⟨(mem_orderedTurns_iff_latest isId).mpr isLatest, by simp [isId]⟩
  · intro turn isIn
    obtain ⟨member, included⟩ := mem_filter.mp isIn
    rw [contains_iff_mem, mem_append] at included
    rcases included with isId | isNear
    · refine ⟨[turn], ?_, by simp, mem_cons_self, ⟨turn, mem_cons_self, isBatch member isId⟩,
        List.IsChain.singleton _⟩
      obtain ⟨front, back, split⟩ := mem_iff_append.mp member
      exact ⟨front, back, by simp [split]⟩
    · obtain ⟨⟨seed, index⟩, isSeed, isNear⟩ := mem_flatMap.mp isNear
      obtain ⟨isIndex, here⟩ := getElem?_eq_some_iff.mp (mem_zipIdx_iff_getElem?.mp isSeed)
      dsimp only at isIndex here isNear
      subst here
      split at isNear
      · next isId =>
        obtain ⟨isRun, short, holdsSeed, chain⟩ := window_spec isIndex
        obtain ⟨other, isOther, same⟩ := mem_map.mp isNear
        obtain rfl :=
          inj_on_of_nodup_map nodup_ids_orderedTurns (isRun.subset isOther) member same
        exact ⟨_, isRun, short, isOther, ⟨_, holdsSeed, isBatch (getElem_mem isIndex) (by
          simpa using isId)⟩, chain⟩
      · cases isNear

def recordedFragment (revision : Nat) : ClaimGateTurnSnapshot :=
  { recordedTurn.toSnapshot with revision }

/-- A batch turn with an adjacent fragment on either side, and a later turn. -/
theorem addsNearby_recordedFragments :
    let before := { recordedFragment 0 with id := "turn-0", text := "The sky" }
    let seed := { recordedFragment 0 with startMs := 1200, endMs := 2000, text := "is always" }
    let behind := { recordedFragment 0 with id := "turn-2", startMs := 4500, endMs := 5000 }
    let later := { recordedFragment 0 with id := "turn-3", startMs := 5100, endMs := 6000 }
    expandLocalClaimContext recordedHost [seed] [later, behind, before] = [before, seed, behind] ∧
      AddsNearby recordedHost (latest [seed]) [seed] [later, behind, before] := by
  constructor
  · decide +kernel
  · exact addsNearby recordedHost recordedHost_collates _ _

/-- Of two revisions of a turn in a batch, one is left. -/
theorem not_addsNearby_revisedTurn : ¬AddsNearby recordedHost
      [recordedFragment 0, recordedFragment 1] [recordedFragment 0, recordedFragment 1] [] := by
  intro adds
  have same := inj_on_of_nodup_map adds.ids (adds.contains mem_cons_self)
    (adds.contains (mem_cons_of_mem _ mem_cons_self)) rfl
  exact absurd same (by decide)

end Obelus.Live.ClaimContext
