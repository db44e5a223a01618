import Mathlib.Algebra.Order.Ring.Cast
import Obelus.Data.Comparators
import Obelus.Data.Greedy
import Obelus.Data.Text
import Obelus.Live.MeetingReducer

/-!
# Bleed and the order of arrival

Deduplication drops the turns that repeat an earlier kept turn of the other
source.  The reducer deduplicates after every event, among the turns that are
left and the new one, so a turn that was dropped does not come back when the
turn it repeated is dropped later.
-/

namespace Obelus.Live

open Obelus.Data List
open ActiveTurns (get?_ofTurns ofTurns)

/-- `localeCompare` compares consistently. -/
structure Host.Collates (host : Host) : Prop where
  swap : ∀ left right, 0 < host.localeCompare left right ↔ host.localeCompare right left < 0
  trans : ∀ first second third, host.localeCompare first second ≤ 0 →
    host.localeCompare second third ≤ 0 → host.localeCompare first third ≤ 0

/-- The first turn stands before the second one in the merged order. -/
def MergedBefore (host : Host) (left right : TranscriptTurn) : Prop :=
  compareMergedTurns host left right < 0

instance (host : Host) (left right : TranscriptTurn) : Decidable (MergedBefore host left right) :=
  inferInstanceAs (Decidable (_ < (0 : ℚ)))

def TranscriptTurn.firstSeen (turn : TranscriptTurn) : Number :=
  turn.finalizedAtMs.getD turn.receivedAtMs

section Order

variable {host : Host}

variable {left right : TranscriptTurn} {turns rest : List TranscriptTurn}

theorem Host.Collates.compares {α : Type} (collates : host.Collates) (text : α → String) :
    Compares fun left right => (host.localeCompare (text left) (text right) : ℚ) where
  swap _ _ := by exact_mod_cast collates.swap _ _
  trans _ _ _ := by exact_mod_cast collates.trans _ _ _

theorem compareMergedTurns_eq : compareMergedTurns host =
    byKey TranscriptTurn.startMs (byKey TranscriptTurn.endMs (byKey TranscriptTurn.firstSeen
      fun left right => host.localeCompare left.id right.id)) :=
  rfl

theorem compares_mergedTurns (collates : host.Collates) : Compares (compareMergedTurns host) :=
  (((collates.compares _).byKey _).byKey _).byKey _

theorem mergedBefore_asymm (collates : host.Collates) (first second : TranscriptTurn)
    (before : MergedBefore host first second) : ¬MergedBefore host second first :=
  fun after => absurd (((compares_mergedTurns collates).swap first second).mpr after) before.not_gt

/-- The turns are told apart by the comparison of their ids. -/
def ToldApart (host : Host) (turns : List TranscriptTurn) : Prop :=
  ∀ left ∈ turns, ∀ right ∈ turns, host.localeCompare left.id right.id = 0 → left = right

theorem ToldApart.ids (apart : ToldApart host turns) (collates : host.Collates)
    (isLeft : left ∈ turns) (isRight : right ∈ turns) (same : left.id = right.id) :
    left = right := by
  apply apart left isLeft right isRight
  have swap := collates.swap left.id left.id
  rw [← same]
  omega

/-- Turns that are told apart are compared as different. -/
theorem compareMergedTurns_ne_zero (apart : ToldApart host turns) (isLeft : left ∈ turns)
    (isRight : right ∈ turns) (different : left ≠ right) :
    compareMergedTurns host left right ≠ 0 := by
  intro tie
  rw [compareMergedTurns_eq] at tie
  have ids := byKey_eq_zero (byKey_eq_zero (byKey_eq_zero tie))
  exact different (apart left isLeft right isRight (by exact_mod_cast ids))

theorem mergeTurnsDeterministically_sorted (collates : host.Collates)
    (turns : List TranscriptTurn) : (mergeTurnsDeterministically host turns).Pairwise
      fun left right => compareMergedTurns host left right ≤ 0 :=
  (compares_mergedTurns collates).pairwise_insertionSort _

/-- Merged turns stand in their order. -/
theorem mergeTurnsDeterministically_ordered (collates : host.Collates)
    (keys : (turns.map turnKey).Nodup) (apart : ToldApart host turns) :
    (mergeTurnsDeterministically host turns).Perm turns ∧
      (mergeTurnsDeterministically host turns).Pairwise (MergedBefore host) := by
  have perm : (mergeTurnsDeterministically host turns).Perm turns := by
    rw [mergeTurnsDeterministically, foldl_keepNewest_values keys fun _ _ => rfl]
    exact perm_insertionSort _ _
  refine ⟨perm, ?_⟩
  have sorted := mergeTurnsDeterministically_sorted collates turns
  have distinct : (mergeTurnsDeterministically host turns).Nodup := perm.nodup_iff.mpr keys.of_map
  apply (sorted.and distinct).imp_of_mem
  rintro left right isLeft isRight ⟨le, different⟩
  exact lt_of_le_of_ne le (compareMergedTurns_ne_zero apart (perm.subset isLeft)
    (perm.subset isRight) different)

/-- A turn that starts after another one has ended does not repeat it. -/
theorem likelyBleedDuplicate_of_after (after : left.endMs < right.startMs) :
    likelyBleedDuplicate host left right = false := by
  have overlap : min left.endMs right.endMs - max left.startMs right.startMs ≤ 0 := by
    have ends := min_le_left left.endMs right.endMs
    have starts := le_max_right left.startMs right.startMs
    exact sub_nonpos.mpr (ends.trans (after.le.trans starts))
  simp [likelyBleedDuplicate, overlap]

section

variable (sorted : rest.Pairwise fun first second => first.startMs ≤ second.startMs)
include sorted

theorem has_removeBleed (removed : JsSet String) (id : String) :
    (removeBleed host left rest removed).has id ↔
      removed.has id ∨ ∃ right ∈ rest, right.id = id ∧ likelyBleedDuplicate host left right := by
  induction rest generalizing removed with
  | nil => simp [removeBleed]
  | cons right rest ih =>
    obtain ⟨first, sortedRest⟩ := pairwise_cons.mp sorted
    unfold removeBleed
    split
    · next after =>
      -- the loop stops, and the turns behind start later still
      have none : ∀ other ∈ right :: rest, likelyBleedDuplicate host left other = false := by
        intro other member
        apply likelyBleedDuplicate_of_after
        rcases mem_cons.mp member with rfl | member
        · exact after
        · exact lt_of_lt_of_le after (first other member)
      constructor
      · exact .inl
      · rintro (had | ⟨other, member, -, bleeds⟩)
        · exact had
        · rw [none other member] at bleeds
          cases bleeds
    · split
      · next distinct =>
        have headDistinct : likelyBleedDuplicate host left right = false := by
          simpa using distinct
        rw [ih sortedRest]
        simp [headDistinct]
      · next repeats =>
        have headRepeats : likelyBleedDuplicate host left right = true := by
          simpa using repeats
        rw [ih sortedRest]
        simp only [JsSet.has_eq_true_iff, JsSet.mem_add, exists_mem_cons_iff, headRepeats,
          and_true, or_assoc]
        rw [or_left_comm, eq_comm]

theorem has_removedTurnIds (removed : JsSet String) (id : String) :
    (removed.has id → (removedTurnIds host rest removed).has id) ∧
      ((removedTurnIds host rest removed).has id → removed.has id ∨
        ∃ turn ∈ rest, turn.id = id) := by
  induction rest generalizing removed with
  | nil => simp [removedTurnIds]
  | cons left rest ih =>
    obtain ⟨-, sortedRest⟩ := pairwise_cons.mp sorted
    unfold removedTurnIds
    split
    · obtain ⟨grows, from'⟩ := ih sortedRest removed
      refine ⟨grows, fun has => (from' has).imp_right ?_⟩
      rintro ⟨turn, member, same⟩
      exact ⟨turn, mem_cons_of_mem left member, same⟩
    · obtain ⟨grows, from'⟩ := ih sortedRest (removeBleed host left rest removed)
      constructor
      · exact fun had => grows ((has_removeBleed sortedRest removed id).mpr (.inl had))
      · intro has
        rcases from' has with has | ⟨turn, member, same⟩
        · rcases (has_removeBleed sortedRest removed id).mp has with had | ⟨turn, member, same, -⟩
          · exact .inl had
          · exact .inr ⟨turn, mem_cons_of_mem left member, same⟩
        · exact .inr ⟨turn, mem_cons_of_mem left member, same⟩

/-- The turns that the loops leave are a greedy choice, from what the turns
chosen before have removed on. -/
theorem filter_removedTurnIds (ids : (rest.map TranscriptTurn.id).Nodup)
    (chosen : List TranscriptTurn) (removed : JsSet String)
    (track : ∀ turn ∈ rest, removed.has turn.id ↔
      ∃ before ∈ chosen, likelyBleedDuplicate host before turn) :
    rest.filter (fun turn => !(removedTurnIds host rest removed).has turn.id) =
      greedy (likelyBleedDuplicate host) chosen rest := by
  induction rest generalizing chosen removed with
  | nil => rfl
  | cons left rest ih =>
    obtain ⟨-, sortedRest⟩ := pairwise_cons.mp sorted
    obtain ⟨newId, idsRest⟩ := nodup_cons.mp ids
    have trackRest : ∀ turn ∈ rest, removed.has turn.id ↔
        ∃ before ∈ chosen, likelyBleedDuplicate host before turn :=
      fun turn member => track turn (mem_cons_of_mem left member)
    have tracked := track left mem_cons_self
    unfold removedTurnIds greedy
    by_cases lost : removed.has left.id
    · have conflicts : chosen.any (fun before => likelyBleedDuplicate host before left) :=
        any_eq_true.mpr (tracked.mp lost)
      have still : (removedTurnIds host rest removed).has left.id :=
        (has_removedTurnIds sortedRest removed left.id).1 lost
      rw [if_pos lost, if_pos conflicts, filter_cons_of_neg (by simpa using still)]
      exact ih sortedRest idsRest chosen removed trackRest
    · have free : ¬chosen.any (fun before => likelyBleedDuplicate host before left) := by
        rw [any_eq_true, ← tracked]
        exact lost
      have kept :
          ¬(removedTurnIds host rest (removeBleed host left rest removed)).has left.id := by
        intro has
        rcases (has_removedTurnIds sortedRest _ _).2 has with has | ⟨turn, member, same⟩
        · rcases (has_removeBleed sortedRest removed left.id).mp has with
            had | ⟨turn, member, same, -⟩
          · exact lost had
          · exact newId (mem_map.mpr ⟨turn, member, same⟩)
        · exact newId (mem_map.mpr ⟨turn, member, same⟩)
      rw [Bool.not_eq_true] at kept
      rw [if_neg lost, if_neg free, filter_cons_of_pos (by rw [kept]; rfl)]
      congr 1
      apply ih sortedRest idsRest
      intro turn member
      rw [has_removeBleed sortedRest, trackRest turn member]
      have own : (∃ right ∈ rest, right.id = turn.id ∧ likelyBleedDuplicate host left right) ↔
          likelyBleedDuplicate host left turn := by
        constructor
        · rintro ⟨right, isRight, same, bleeds⟩
          rwa [inj_on_of_nodup_map idsRest isRight member same] at bleeds
        · exact fun bleeds => ⟨turn, member, rfl, bleeds⟩
      rw [own]
      simp [or_and_right, exists_or]

end

theorem startMs_le_of_mergedBefore (before : MergedBefore host left right) :
    left.startMs ≤ right.startMs :=
  key_le_of_byKey_nonpos (compareMergedTurns_eq ▸ le_of_lt before)

/-- Deduplication chooses greedily in the merged order. -/
theorem deduplicateSourceBleed_eq_greedy (collates : host.Collates)
    (keys : (turns.map turnKey).Nodup) (apart : ToldApart host turns) :
    deduplicateSourceBleed host turns =
      greedy (likelyBleedDuplicate host) [] (mergeTurnsDeterministically host turns) := by
  obtain ⟨perm, ordered⟩ := mergeTurnsDeterministically_ordered collates keys apart
  have distinct : (mergeTurnsDeterministically host turns).Nodup := perm.nodup_iff.mpr keys.of_map
  have ids : ((mergeTurnsDeterministically host turns).map TranscriptTurn.id).Nodup := by
    apply Nodup.map_on _ distinct
    exact fun left isLeft right isRight =>
      apart.ids collates (perm.subset isLeft) (perm.subset isRight)
  apply filter_removedTurnIds (ordered.imp startMs_le_of_mergedBefore) ids
  simp

theorem deduplicateSourceBleed_ordered (collates : host.Collates) (keys : (turns.map turnKey).Nodup)
    (apart : ToldApart host turns) :
    (deduplicateSourceBleed host turns).Pairwise (MergedBefore host) := by
  rw [deduplicateSourceBleed_eq_greedy collates keys apart]
  exact (mergeTurnsDeterministically_ordered collates keys apart).2.sublist (greedy_sublist _ _)

theorem deduplicateSourceBleed_isGreedy (collates : host.Collates)
    (keys : (turns.map turnKey).Nodup) (apart : ToldApart host turns) :
    IsGreedy (fun left right => likelyBleedDuplicate host left right) (MergedBefore host)
      (deduplicateSourceBleed host turns) turns := by
  obtain ⟨perm, ordered⟩ := mergeTurnsDeterministically_ordered collates keys apart
  constructor
  · apply (deduplicateSourceBleed_ordered collates keys apart).imp
    rintro turn _ before rfl
    exact mergedBefore_asymm collates turn turn before before
  · intro turn
    rw [deduplicateSourceBleed_eq_greedy collates keys apart,
      mem_greedy_iff (mergedBefore_asymm collates) ordered [] turn, perm.mem_iff]
    simp

end Order

/-- A `provider_turn` action. -/
structure TurnArrival where
  event : ProviderTurnEvent
  context : ProviderTurnContext
  deriving DecidableEq

/-- The turn of an arrival that finds no turn under its key. -/
def TurnArrival.turn (arrival : TurnArrival) : TranscriptTurn :=
  providerTurn initialMeetingState arrival.event arrival.context

/-- The state after some arrivals. -/
def afterArrivals (host : Host) (arrivals : List TurnArrival) : LiveMeetingState :=
  arrivals.foldl
    (fun state arrival => meetingReducer host state (.providerTurn arrival.event arrival.context))
    initialMeetingState

section Arrivals

variable {host : Host}

theorem values_ofTurns {turns : List TranscriptTurn} (keys : (turns.map turnKey).Nodup) :
    (ofTurns turns).values = turns := by
  induction turns using reverseRecOn with
  | nil => rfl
  | append_singleton turns turn ih =>
    rw [map_append, nodup_append] at keys
    have absent : (ofTurns turns).get? (turnKey turn) = none := by
      rw [Option.eq_none_iff_forall_ne_some]
      intro other found
      obtain ⟨member, same⟩ := (get?_ofTurns keys.1).mp found
      exact keys.2.2 _ (mem_map_of_mem member) _ (mem_map_of_mem mem_cons_self) same.symm
    have step : (ofTurns (turns ++ [turn])).turns =
        (ofTurns turns).turns.set (turnKey turn) turn := by
      simp [ofTurns, JsMap.ofEntries]
    rw [ActiveTurns.values, step, JsMap.values_set_of_absent absent]
    exact congrArg (· ++ [turn]) (ih keys.1)

variable {turns : List TranscriptTurn} (collates : host.Collates)
  (keys : (turns.map turnKey).Nodup) (apart : ToldApart host turns)

include keys in
theorem keys_of_subset {part : List TranscriptTurn} (nodup : part.Nodup) (within : part ⊆ turns) :
    (part.map turnKey).Nodup :=
  nodup.map_on fun _ isLeft _ isRight same =>
    inj_on_of_nodup_map keys (within isLeft) (within isRight) same

include collates keys apart in
theorem deduplicate_part (part : List TranscriptTurn) (nodup : part.Nodup)
    (within : part ⊆ turns) :
    IsGreedy (fun left right => likelyBleedDuplicate host left right) (MergedBefore host)
      (deduplicateSourceBleed host part) part :=
  deduplicateSourceBleed_isGreedy collates (keys_of_subset keys nodup within)
    fun left isLeft right isRight => apart left (within isLeft) right (within isRight)

/-- A new key takes the turn that an empty state would take. -/
theorem meetingReducer_of_absent (host : Host) {state : LiveMeetingState} {arrival : TurnArrival}
    (runtime : state.runtime = initialMeetingState.runtime) (artifact : state.artifact = none)
    (absent : state.activeTurns.get? (turnKey arrival.turn) = none) :
    let next := meetingReducer host state (.providerTurn arrival.event arrival.context)
    let active := ofTurns
      (deduplicateSourceBleed host (state.activeTurns.put arrival.turn).values)
    next.runtime = initialMeetingState.runtime ∧ next.artifact = none ∧
      next.activeTurns = active ∧ next.turnOrder = orderedTurnKeys host active := by
  have accepts : acceptsProviderTurns state := by
    rw [acceptsProviderTurns, runtime]
    rfl
  have noTurn : state.activeTurns.get?
      (transcriptTurnKey arrival.event.providerSessionId arrival.event.turnId) = none := absent
  have taken : providerTurn state arrival.event arrival.context = arrival.turn := by
    have empty : initialMeetingState.activeTurns.get?
        (transcriptTurnKey arrival.event.providerSessionId arrival.event.turnId) = none := rfl
    simp only [providerTurn, noTurn, runtime, artifact]
    rfl
  simp only [meetingReducer, accepts, if_true, applyProviderTurn, noTurn, Option.any_none,
    Bool.false_eq_true, if_false, taken]
  exact ⟨runtime, artifact, trivial, trivial⟩

include collates keys apart in
/-- The reducer chooses again after each arrival. -/
theorem afterArrivals_eq {arrivals : List TurnArrival}
    (nodup : (arrivals.map TurnArrival.turn).Nodup)
    (within : arrivals.map TurnArrival.turn ⊆ turns) : let state := afterArrivals host arrivals
    let active := ofTurns
      (chooseOnArrival (deduplicateSourceBleed host) (arrivals.map TurnArrival.turn))
    state.runtime = initialMeetingState.runtime ∧ state.artifact = none ∧
      state.activeTurns = active ∧ state.turnOrder = orderedTurnKeys host active := by
  induction arrivals using reverseRecOn with
  | nil => exact ⟨rfl, rfl, rfl, rfl⟩
  | append_singleton arrivals arrival ih =>
    rw [map_append, map_singleton] at nodup within ⊢
    have within' : arrivals.map TurnArrival.turn ⊆ turns :=
      fun turn member => within (mem_append_left _ member)
    have nodup' := (nodup_append.mp nodup).1
    obtain ⟨runtime, artifact, active, -⟩ := ih nodup' within'
    have chosen := chosenOnArrival (deduplicate_part collates keys apart) nodup' within'
    have chosenWithin := Subset.trans chosen.subset within'
    have chosenKeys := keys_of_subset keys chosen.nodup chosenWithin
    have absent :
        (afterArrivals host arrivals).activeTurns.get? (turnKey arrival.turn) = none := by
      rw [active, Option.eq_none_iff_forall_ne_some]
      intro other found
      obtain ⟨member, same⟩ := (get?_ofTurns chosenKeys).mp found
      have isTurn : arrival.turn ∈ turns := within (by simp)
      obtain rfl := inj_on_of_nodup_map keys isTurn (chosenWithin member) same
      exact (nodup_append.mp nodup).2.2 _ (chosen.subset member) _ mem_cons_self rfl
    have values : ((afterArrivals host arrivals).activeTurns.put arrival.turn).values =
        chooseOnArrival (deduplicateSourceBleed host) (arrivals.map TurnArrival.turn) ++
          [arrival.turn] := by
      rw [ActiveTurns.values, ActiveTurns.put, JsMap.values_set_of_absent absent, active]
      exact congrArg (· ++ [arrival.turn]) (values_ofTurns chosenKeys)
    have next := meetingReducer_of_absent host runtime artifact absent
    have step : afterArrivals host (arrivals ++ [arrival]) =
        meetingReducer host (afterArrivals host arrivals)
          (.providerTurn arrival.event arrival.context) := by
      rw [afterArrivals, foldl_append]
      rfl
    rw [values] at next
    rw [step, chooseOnArrival_snoc]
    exact next

variable {arrivals : List TranscriptTurn}

include collates keys apart in
theorem chooseOnArrival_ordered (nodup : arrivals.Nodup) (within : arrivals ⊆ turns) :
    (chooseOnArrival (deduplicateSourceBleed host) arrivals).Pairwise (MergedBefore host) := by
  rcases arrivals.eq_nil_or_concat with rfl | ⟨arrivals, arrival, rfl⟩
  · exact Pairwise.nil
  · rw [concat_eq_append] at nodup within ⊢
    have before := chosenOnArrival (deduplicate_part collates keys apart)
      (nodup_append.mp nodup).1 fun turn member => within (mem_append_left _ member)
    have considered : (chooseOnArrival (deduplicateSourceBleed host) arrivals ++ [arrival]).Nodup ∧
        chooseOnArrival (deduplicateSourceBleed host) arrivals ++ [arrival] ⊆ turns := by
      constructor
      · apply nodup_append.mpr
        refine ⟨before.nodup, nodup_singleton arrival, ?_⟩
        exact fun first member => (nodup_append.mp nodup).2.2 first (before.subset member)
      · apply append_subset.mpr
        constructor
        · exact fun turn member => within (mem_append_left _ (before.subset member))
        · exact fun turn member => within (mem_append_right _ member)
    rw [chooseOnArrival_snoc]
    exact deduplicateSourceBleed_ordered collates (keys_of_subset keys considered.1 considered.2)
      fun left isLeft right isRight => apart left (considered.2 isLeft) right (considered.2 isRight)

include collates keys apart in
/-- Arrivals lead to the deduplicated list when they lead to its turns. -/
theorem chooseOnArrival_eq (perm : arrivals.Perm turns)
    (same : ∀ turn, turn ∈ chooseOnArrival (deduplicateSourceBleed host) arrivals ↔
      turn ∈ deduplicateSourceBleed host turns) :
    chooseOnArrival (deduplicateSourceBleed host) arrivals = deduplicateSourceBleed host turns := by
  have nodup := perm.nodup_iff.mpr keys.of_map
  have all := deduplicate_part collates keys apart turns keys.of_map (Subset.refl turns)
  have chosen := chosenOnArrival (deduplicate_part collates keys apart) nodup perm.subset
  refine Perm.eq_of_pairwise ?_
    (chooseOnArrival_ordered collates keys apart nodup perm.subset)
    (deduplicateSourceBleed_ordered collates keys apart)
    ((perm_ext_iff_of_nodup chosen.nodup all.nodup).mpr same)
  exact fun left right _ _ before after =>
    absurd after (mergedBefore_asymm collates left right before)

end Arrivals

/-- The state shows the turns that deduplicating all turns at once leaves. -/
def ShowsDeduplicated (host : Host) (arrivals : List TurnArrival) (state : LiveMeetingState) :
    Prop :=
  let active := ofTurns
    (deduplicateSourceBleed host (arrivals.map TurnArrival.turn))
  state.activeTurns = active ∧ state.turnOrder = orderedTurnKeys host active

/-- Every turn that repeats an earlier turn of the merged order also repeats an
earlier turn that itself repeats none before it. -/
def RepeatsOriginals (host : Host) (turns : List TranscriptTurn) : Prop :=
  ∀ first ∈ turns, ∀ second ∈ turns, MergedBefore host first second →
    likelyBleedDuplicate host first second →
      ∃ original ∈ turns, MergedBefore host original second ∧
        likelyBleedDuplicate host original second ∧
          ∀ before ∈ turns, MergedBefore host before original →
            ¬likelyBleedDuplicate host before original

/-- Events with different keys lead to the deduplicated turns in every order of
arrival exactly when every repeated turn repeats an original. -/
theorem afterArrivals_orderFree_iff {host : Host} (collates : host.Collates)
    {arrivals : List TurnArrival}
    (keys : (arrivals.map fun arrival => turnKey arrival.turn).Nodup)
    (apart : ToldApart host (arrivals.map TurnArrival.turn)) :
    (∀ order : List TurnArrival, order.Perm arrivals →
        ShowsDeduplicated host arrivals (afterArrivals host order)) ↔
      RepeatsOriginals host (arrivals.map TurnArrival.turn) := by
  have turnKeys : ((arrivals.map TurnArrival.turn).map turnKey).Nodup := by
    rwa [map_map]
  have distinct := turnKeys.of_map
  have chosen := deduplicate_part collates turnKeys apart
  have orderFree := chooseOnArrival_orderFree_iff distinct (mergedBefore_asymm collates) chosen
  have all := chosen _ distinct (Subset.refl _)
  have allKeys := keys_of_subset turnKeys all.nodup all.subset
  refine Iff.trans ?_ orderFree
  constructor
  · intro shows order perm turn
    obtain ⟨reordered, rfl, reorder⟩ : ∃ reordered : List TurnArrival,
        order = reordered.map TurnArrival.turn ∧ reordered.Perm arrivals := by
      have lifted := congrFun₂ (eq_map_comp_perm TurnArrival.turn) order arrivals
      exact lifted.mpr perm
    have nodup := perm.nodup_iff.mpr distinct
    have chosenKeys := keys_of_subset turnKeys (chosenOnArrival chosen nodup perm.subset).nodup
      (Subset.trans (chosenOnArrival chosen nodup perm.subset).subset perm.subset)
    obtain ⟨-, -, active, -⟩ := afterArrivals_eq collates turnKeys apart nodup perm.subset
    have same := congrArg ActiveTurns.values (active.symm.trans (shows reordered reorder).1)
    rw [values_ofTurns chosenKeys, values_ofTurns allKeys] at same
    rw [same]
  · intro same order perm
    have turnsPerm := perm.map TurnArrival.turn
    obtain ⟨-, -, active, turnOrder⟩ := afterArrivals_eq collates turnKeys apart
      (turnsPerm.nodup_iff.mpr distinct) turnsPerm.subset
    have equal := chooseOnArrival_eq collates turnKeys apart turnsPerm (same _ turnsPerm)
    rw [equal] at active turnOrder
    exact ⟨active, turnOrder⟩

instance (host : Host) (turns : List TranscriptTurn) : Decidable (ToldApart host turns) :=
  inferInstanceAs (Decidable (∀ left ∈ turns, ∀ right ∈ turns, _ → left = right))

instance (host : Host) (turns : List TranscriptTurn) : Decidable (RepeatsOriginals host turns) :=
  inferInstanceAs (Decidable (∀ first ∈ turns, ∀ second ∈ turns, _ → _ →
    ∃ original ∈ turns, _ ∧ _ ∧ ∀ before ∈ turns, _ → ¬_))

theorem recordedHost_localeCompare (left right : String) :
    recordedHost.localeCompare left right = if left = right then 0 else if left < right then -1
      else 1 :=
  rfl

theorem recordedHost_collates : recordedHost.Collates where
  swap left right := by
    rw [recordedHost_localeCompare, recordedHost_localeCompare]
    rcases lt_trichotomy left right with less | rfl | more
    · rw [if_neg less.ne, if_pos less, if_neg less.ne', if_neg less.not_gt]
      decide
    · simp
    · rw [if_neg more.ne', if_neg more.not_gt, if_neg more.ne, if_pos more]
      decide
  trans first second third := by
    have nonpos : ∀ left right, recordedHost.localeCompare left right ≤ 0 ↔ left ≤ right := by
      intro left right
      rw [recordedHost_localeCompare]
      rcases lt_trichotomy left right with less | rfl | more
      · rw [if_neg less.ne, if_pos less]
        exact iff_of_true (by decide) less.le
      · rw [if_pos rfl]
        exact iff_of_true (by decide) le_rfl
      · rw [if_neg more.ne', if_neg more.not_gt]
        exact iff_of_false (by decide) more.not_ge
    rw [nonpos, nonpos, nonpos]
    exact le_trans

/-- A final turn of a source that says the same as all others. -/
def sameWords (sourceKind : SourceKind) (turnId : String) (startMs endMs : Number) :
    TurnArrival where
  event :=
    { providerSessionId := "session", turnId, turnOrder := startMs, revision := 0
      transcript := "the budget grew", speakerLabel := none, words := [], startMs, endMs
      utteranceBoundary := true, endOfTurn := true, turnIsFormatted := true
      durableFinal := true, receivedAtMs := endMs }
  context :=
    { speakerId := none, turnId := none, sourceKind := some sourceKind, provider := none }

/-- Two system turns repeat the microphone turn before them. -/
def twoRepeats : List TurnArrival :=
  [sameWords .microphone "0" 0 1000, sameWords .system "1" 100 1100,
    sameWords .system "2" 200 1000]

theorem afterArrivals_orderFree_twoRepeats :
    ShowsDeduplicated recordedHost twoRepeats (afterArrivals recordedHost twoRepeats.reverse) :=
  (afterArrivals_orderFree_iff recordedHost_collates (by decide +kernel)
    (by decide +kernel)).mpr (by decide +kernel) twoRepeats.reverse (reverse_perm twoRepeats)

/-- The turns of a chain: the system turn repeats the first microphone turn, and
the second microphone turn repeats only the system turn. -/
def chainOfRepeats : List TurnArrival :=
  [sameWords .microphone "0" 0 1000, sameWords .system "1" 100 1100,
    sameWords .microphone "2" 200 1200]

/-- When the first turn of the chain arrives last, the last one is lost. -/
theorem not_orderFree_chainOfRepeats : ∃ order : List TurnArrival, order.Perm chainOfRepeats ∧
      (chainOfRepeats.map fun arrival => turnKey arrival.turn).Nodup ∧
        (afterArrivals recordedHost order).turnOrder ≠
          (afterArrivals recordedHost chainOfRepeats).turnOrder ∧
        ¬ShowsDeduplicated recordedHost chainOfRepeats (afterArrivals recordedHost order) := by
  refine ⟨[sameWords .system "1" 100 1100, sameWords .microphone "2" 200 1200,
    sameWords .microphone "0" 0 1000], by decide +kernel, by decide +kernel, by decide +kernel, ?_⟩
  rintro ⟨-, turnOrder⟩
  exact absurd turnOrder (by decide +kernel)

end Obelus.Live
