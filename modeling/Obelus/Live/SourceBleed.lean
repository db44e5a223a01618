import Mathlib.Data.List.Dedup
import Obelus.Live.BleedOrder

/-!
# The turns that deduplication keeps

Merging keeps the newest revision of every provider turn, and the sweep keeps a greedy
choice of the merged turns.  Both depend on the turns alone where the comparison of ids
tells the turns apart.
-/

namespace Obelus.Live

open Obelus.Data List

/-- No turn of the list with the same key has a higher revision. -/
def Newest (turns : List TranscriptTurn) (turn : TranscriptTurn) : Prop :=
  turn ∈ turns ∧ ∀ other ∈ turns, turnKey other = turnKey turn → other.revision ≤ turn.revision

/-- No two turns have the same key and the same revision. -/
def DistinctRevisions (turns : List TranscriptTurn) : Prop :=
  (turns.map fun turn => (turnKey turn, turn.revision)).Nodup

section Merged

variable {host : Host} {turns : List TranscriptTurn}

/-- The map holds a turn for every key, which no turn of the key is newer than. -/
structure HoldsNewest (turns : List TranscriptTurn) (unique : JsMap String TranscriptTurn) :
    Prop where
  fromTurns : ∀ {key kept}, unique.get? key = some kept → turnKey kept = key ∧ kept ∈ turns
  newest : ∀ turn ∈ turns, ∃ kept, unique.get? (turnKey turn) = some kept ∧
    turn.revision ≤ kept.revision

theorem HoldsNewest.set {unique : JsMap String TranscriptTurn} (holds : HoldsNewest turns unique)
    {turn : TranscriptTurn}
    (newer : ∀ previous, unique.get? (turnKey turn) = some previous →
      previous.revision ≤ turn.revision) :
    HoldsNewest (turns ++ [turn]) (unique.set (turnKey turn) turn) where
  fromTurns {key kept} found := by
    rw [JsMap.get?_set] at found
    split at found
    · next same =>
      cases found
      exact ⟨same.symm, mem_append_right _ mem_cons_self⟩
    · obtain ⟨own, member⟩ := holds.fromTurns found
      exact ⟨own, mem_append_left _ member⟩
  newest other member := by
    by_cases same : turnKey other = turnKey turn
    · refine ⟨turn, by rw [same, JsMap.get?_set_self], ?_⟩
      rcases mem_append.mp member with old | isNew
      · obtain ⟨kept, found, below⟩ := holds.newest other old
        rw [same] at found
        exact below.trans (newer kept found)
      · rw [mem_singleton.mp isNew]
    · rw [JsMap.get?_set_of_ne unique same]
      rcases mem_append.mp member with old | isNew
      · exact holds.newest other old
      · exact absurd (congrArg turnKey (mem_singleton.mp isNew)) same

theorem HoldsNewest.skip {unique : JsMap String TranscriptTurn} (holds : HoldsNewest turns unique)
    {turn previous : TranscriptTurn} (found : unique.get? (turnKey turn) = some previous)
    (notNewer : turn.revision ≤ previous.revision) : HoldsNewest (turns ++ [turn]) unique where
  fromTurns found := by
    obtain ⟨own, member⟩ := holds.fromTurns found
    exact ⟨own, mem_append_left _ member⟩
  newest other member := by
    rcases mem_append.mp member with old | isNew
    · exact holds.newest other old
    · rw [mem_singleton.mp isNew]
      exact ⟨previous, found, notNewer⟩

theorem HoldsNewest.keepNewest {unique : JsMap String TranscriptTurn}
    (holds : HoldsNewest turns unique) (turn : TranscriptTurn) :
    HoldsNewest (turns ++ [turn]) (keepNewest unique turn) := by
  unfold Obelus.Live.keepNewest
  dsimp only
  split
  · next absent =>
    apply holds.set
    intro previous found
    rw [show unique.get? (turnKey turn) = none from absent] at found
    cases found
  · next previous found =>
    have found : unique.get? (turnKey turn) = some previous := found
    split
    · next newer =>
      apply holds.set
      intro other same
      rw [found] at same
      cases same
      exact newer.le
    · next notNewer => exact holds.skip found (not_lt.mp notNewer)

theorem holdsNewest_foldl (turns : List TranscriptTurn) :
    HoldsNewest turns (turns.foldl keepNewest JsMap.empty) := by
  induction turns using reverseRecOn with
  | nil =>
    constructor
    · intro key kept found
      cases found
    · simp
  | append_singleton turns turn ih =>
    rw [foldl_append]
    exact ih.keepNewest turn

theorem values_perm_merged (host : Host) (turns : List TranscriptTurn) :
    (mergeTurnsDeterministically host turns).Perm (turns.foldl keepNewest JsMap.empty).values :=
  perm_insertionSort _ _

/-- A merged turn is the newest one of its key, and the newest turns are merged. -/
theorem mem_merged_iff (revisions : DistinctRevisions turns) (turn : TranscriptTurn) :
    turn ∈ mergeTurnsDeterministically host turns ↔ Newest turns turn := by
  have holds := holdsNewest_foldl turns
  rw [(values_perm_merged host turns).mem_iff, JsMap.mem_values_iff]
  constructor
  · rintro ⟨key, found⟩
    obtain ⟨rfl, member⟩ := holds.fromTurns found
    refine ⟨member, ?_⟩
    intro other isOther same
    obtain ⟨kept, found', below⟩ := holds.newest other isOther
    rw [same, found] at found'
    cases found'
    exact below
  · rintro ⟨member, newest⟩
    obtain ⟨kept, found, below⟩ := holds.newest turn member
    obtain ⟨own, isKept⟩ := holds.fromTurns found
    have sameRevision := le_antisymm (newest kept isKept own) below
    have same : kept = turn :=
      inj_on_of_nodup_map revisions isKept member (Prod.ext own sameRevision)
    exact ⟨turnKey turn, same ▸ found⟩

theorem merged_subset (host : Host) (turns : List TranscriptTurn) :
    mergeTurnsDeterministically host turns ⊆ turns := by
  intro turn member
  obtain ⟨key, found⟩ := JsMap.mem_values_iff.mp ((values_perm_merged host turns).subset member)
  exact ((holdsNewest_foldl turns).fromTurns found).2

/-- No key is merged twice. -/
theorem nodup_keys_merged (host : Host) (turns : List TranscriptTurn) :
    ((mergeTurnsDeterministically host turns).map turnKey).Nodup := by
  rw [((values_perm_merged host turns).map turnKey).nodup_iff]
  have sameKeys : (turns.foldl keepNewest JsMap.empty).values.map turnKey =
      (turns.foldl keepNewest JsMap.empty).entries.map Prod.fst := by
    rw [JsMap.values, map_map]
    apply map_congr_left
    rintro ⟨key, kept⟩ member
    exact ((holdsNewest_foldl turns).fromTurns (JsMap.mem_entries_iff.mp member)).1
  rw [sameKeys]
  exact (turns.foldl keepNewest JsMap.empty).nodup

theorem nodup_ids_merged (host : Host) (ids : (turns.map TranscriptTurn.id).Nodup) :
    ((mergeTurnsDeterministically host turns).map TranscriptTurn.id).Nodup := by
  apply Nodup.map_on _ (nodup_keys_merged host turns).of_map
  intro left isLeft right isRight same
  exact inj_on_of_nodup_map ids (merged_subset host turns isLeft)
    (merged_subset host turns isRight) same

/-- The sweep chooses greedily, whatever the keys of the turns are. -/
theorem deduplicateSourceBleed_eq_greedy_merged (collates : host.Collates)
    (ids : (turns.map TranscriptTurn.id).Nodup) : deduplicateSourceBleed host turns =
      greedy (likelyBleedDuplicate host) [] (mergeTurnsDeterministically host turns) := by
  have starts : (mergeTurnsDeterministically host turns).Pairwise
      fun first second => first.startMs ≤ second.startMs := by
    apply (mergeTurnsDeterministically_sorted collates turns).imp
    intro left right le
    exact key_le_of_byKey_nonpos (compareMergedTurns_eq ▸ le)
  apply filter_removedTurnIds starts (nodup_ids_merged host ids)
  simp

theorem deduplicated_sublist (host : Host) (turns : List TranscriptTurn) :
    (deduplicateSourceBleed host turns).Sublist (mergeTurnsDeterministically host turns) :=
  filter_sublist

theorem likelyBleedDuplicate_comm (host : Host) (left right : TranscriptTurn) :
    likelyBleedDuplicate host left right = likelyBleedDuplicate host right left := by
  have shared := length_filter_mem_comm (nodup_dedup (normalizedTokens host left.text))
    (nodup_dedup (normalizedTokens host right.text))
  have sources :
      (decide (left.sourceKind = right.sourceKind) || decide (left.sourceKind = .mixed) ||
        decide (right.sourceKind = .mixed)) = (decide (right.sourceKind = left.sourceKind) ||
        decide (right.sourceKind = .mixed) || decide (left.sourceKind = .mixed)) := by
    rw [Bool.or_right_comm, decide_eq_decide.mpr eq_comm]
  unfold likelyBleedDuplicate
  simp only
  rw [sources, shared, min_comm left.endMs, max_comm left.startMs,
    min_comm (left.endMs - left.startMs), Bool.or_comm (isEmpty _), min_comm (length _)]

/-- The result of the deduplication of some turns. -/
structure MaximalChoice (host : Host) (turns result : List TranscriptTurn) : Prop where
  /-- At most one turn of a provider turn. -/
  single : (result.map fun turn => (turn.providerSessionId, turn.providerTurnId)).Nodup
  /-- It is the highest revision. -/
  newest : ∀ turn ∈ result, Newest turns turn
  sorted : result.Pairwise fun left right => compareMergedTurns host left right ≤ 0
  distinct : ∀ left ∈ result, ∀ right ∈ result, likelyBleedDuplicate host left right = false
  /-- A merged turn that is left out repeats a turn before it that is kept. -/
  leftOut : ∀ front turn back, mergeTurnsDeterministically host turns = front ++ turn :: back →
    turn ∉ result → ∃ before ∈ front, before ∈ result ∧ likelyBleedDuplicate host before turn = true

theorem deduplicateSourceBleed_maximalChoice (collates : host.Collates)
    (ids : (turns.map TranscriptTurn.id).Nodup) (revisions : DistinctRevisions turns) :
    MaximalChoice host turns (deduplicateSourceBleed host turns) where
  single := by
    apply Nodup.of_map fun pair : String × String => transcriptTurnKey pair.1 pair.2
    rw [map_map]
    exact (nodup_keys_merged host turns).sublist ((deduplicated_sublist host turns).map turnKey)
  newest turn member :=
    (mem_merged_iff revisions turn).mp ((deduplicated_sublist host turns).subset member)
  sorted := (mergeTurnsDeterministically_sorted collates turns).sublist
    (deduplicated_sublist host turns)
  distinct := by
    have pairwise := (@pairwise_greedy _ (likelyBleedDuplicate host) []
      (mergeTurnsDeterministically host turns)).1
    rw [← deduplicateSourceBleed_eq_greedy_merged collates ids] at pairwise
    intro left isLeft right isRight
    apply Pairwise.forall_of_forall_of_flip _ pairwise _ isLeft isRight
    · simp [likelyBleedDuplicate]
    · exact pairwise.imp fun free => (likelyBleedDuplicate_comm host _ _).trans free
  leftOut front turn back split lost := by
    rw [deduplicateSourceBleed_eq_greedy_merged collates ids, split] at lost ⊢
    exact exists_mem_greedy_of_not_mem lost

/-- Applied to its result, the deduplication returns it. -/
theorem deduplicateSourceBleed_idem (collates : host.Collates)
    (ids : (turns.map TranscriptTurn.id).Nodup) (revisions : DistinctRevisions turns) :
    deduplicateSourceBleed host (deduplicateSourceBleed host turns) =
      deduplicateSourceBleed host turns := by
  have choice := deduplicateSourceBleed_maximalChoice collates ids revisions
  have keys : ((deduplicateSourceBleed host turns).map turnKey).Nodup :=
    (nodup_keys_merged host turns).sublist ((deduplicated_sublist host turns).map turnKey)
  have idsLeft : ((deduplicateSourceBleed host turns).map TranscriptTurn.id).Nodup :=
    (nodup_ids_merged host ids).sublist ((deduplicated_sublist host turns).map TranscriptTurn.id)
  have merged : mergeTurnsDeterministically host (deduplicateSourceBleed host turns) =
      deduplicateSourceBleed host turns := by
    rw [mergeTurnsDeterministically, foldl_keepNewest_values keys fun _ _ => rfl]
    exact Pairwise.insertionSort_eq choice.sorted
  rw [deduplicateSourceBleed_eq_greedy_merged collates idsLeft, merged]
  apply greedy_eq_self
  · exact pairwise_of_forall_mem_list choice.distinct
  · simp

/-- Told apart, the merged turns stand in one order only. -/
theorem merged_eq_of_perm (collates : host.Collates) {other : List TranscriptTurn}
    (perm : other.Perm turns) (revisions : DistinctRevisions turns)
    (apart : ToldApart host turns) :
    mergeTurnsDeterministically host other = mergeTurnsDeterministically host turns := by
  have revisionsOther : DistinctRevisions other :=
    (perm.map fun turn => (turnKey turn, turn.revision)).nodup_iff.mpr revisions
  have sameNewest : ∀ turn, Newest other turn ↔ Newest turns turn := by
    simp [Newest, perm.mem_iff]
  apply Perm.eq_of_pairwise _ (mergeTurnsDeterministically_sorted collates other)
    (mergeTurnsDeterministically_sorted collates turns)
  · apply (perm_ext_iff_of_nodup (nodup_keys_merged host other).of_map
      (nodup_keys_merged host turns).of_map).mpr
    intro turn
    rw [mem_merged_iff revisionsOther, mem_merged_iff revisions, sameNewest]
  · intro left right isLeft isRight le ge
    by_contra different
    apply compareMergedTurns_ne_zero apart (perm.subset (merged_subset host other isLeft))
      (merged_subset host turns isRight) different
    apply le_antisymm le
    exact not_lt.mp fun less =>
      absurd (((compares_mergedTurns collates).swap right left).mpr less) ge.not_gt

/-- Deduplication keeps a maximal choice of the newest revisions without a repetition, keeps
all of it the second time, and where the ids are told apart it does not depend on the order
of the turns. -/
theorem deduplicateSourceBleed_spec (collates : host.Collates)
    (ids : (turns.map TranscriptTurn.id).Nodup) (revisions : DistinctRevisions turns) :
    MaximalChoice host turns (deduplicateSourceBleed host turns) ∧
      (ToldApart host turns → ∀ other : List TranscriptTurn, other.Perm turns →
        deduplicateSourceBleed host other = deduplicateSourceBleed host turns) ∧
      deduplicateSourceBleed host (deduplicateSourceBleed host turns) =
        deduplicateSourceBleed host turns := by
  refine ⟨deduplicateSourceBleed_maximalChoice collates ids revisions, ?_,
    deduplicateSourceBleed_idem collates ids revisions⟩
  intro apart other perm
  have idsOther : (other.map TranscriptTurn.id).Nodup :=
    (perm.map TranscriptTurn.id).nodup_iff.mpr ids
  rw [deduplicateSourceBleed_eq_greedy_merged collates idsOther,
    deduplicateSourceBleed_eq_greedy_merged collates ids,
    merged_eq_of_perm collates perm revisions apart]

end Merged

instance (turns : List TranscriptTurn) : Decidable (DistinctRevisions turns) :=
  inferInstanceAs (Decidable (List.Nodup _))

/-- A host that compares canonically equivalent texts as equal: a letter with an accent is
compared as the letter and the accent behind it. -/
def canonicalHost : Host :=
  let decomposed (text : String) : String :=
    String.ofList (text.toList.flatMap fun c => if c = 'é' then ['e', '\u0301'] else [c])
  { recordedHost with
    localeCompare := fun left right =>
      recordedHost.localeCompare (decomposed left) (decomposed right) }

theorem canonicalHost_collates : canonicalHost.Collates where
  swap _ _ := recordedHost_collates.swap _ _
  trans _ _ _ := recordedHost_collates.trans _ _ _

/-- Two turns at the same time whose ids are canonically equivalent. -/
def equivalentTurns : List TranscriptTurn :=
  [{ recordedTurn with id := "é", providerTurnId := "0" },
    { recordedTurn with id := "e\u0301", providerTurnId := "1" }]

/-- In either order the turns stay in the order in which they came. -/
theorem not_orderFree_equivalentTurns :
    ¬∀ (host : Host) (turns : List TranscriptTurn), host.Collates →
      (turns.map TranscriptTurn.id).Nodup → DistinctRevisions turns →
        MaximalChoice host turns (deduplicateSourceBleed host turns) ∧
          (∀ other : List TranscriptTurn, other.Perm turns →
            deduplicateSourceBleed host other = deduplicateSourceBleed host turns) ∧
          deduplicateSourceBleed host (deduplicateSourceBleed host turns) =
            deduplicateSourceBleed host turns := by
  intro orderFree
  have same := (orderFree canonicalHost equivalentTurns canonicalHost_collates (by decide)
    (by decide)).2.1 equivalentTurns.reverse (reverse_perm equivalentTurns)
  exact absurd same (by decide +kernel)

/-- Two overlapping turns and an older revision of the second one. -/
def revisedTurns : List TranscriptTurn :=
  [{ recordedTurn with id := "turn-1", providerTurnId := "0" },
    { recordedTurn with id := "turn-2", providerTurnId := "1" },
    { recordedTurn with id := "turn-3", providerTurnId := "1", revision := 1 }]

theorem deduplicateSourceBleed_spec_revisedTurns :
    MaximalChoice recordedHost revisedTurns (deduplicateSourceBleed recordedHost revisedTurns) ∧
      (∀ other : List TranscriptTurn, other.Perm revisedTurns →
        deduplicateSourceBleed recordedHost other =
          deduplicateSourceBleed recordedHost revisedTurns) ∧
      deduplicateSourceBleed recordedHost (deduplicateSourceBleed recordedHost revisedTurns) =
        deduplicateSourceBleed recordedHost revisedTurns := by
  have spec := @deduplicateSourceBleed_spec recordedHost revisedTurns recordedHost_collates
    (by decide) (by decide)
  exact ⟨spec.1, spec.2.1 (by decide), spec.2.2⟩

end Obelus.Live
