import Mathlib.Data.List.Infix
import Mathlib.Data.List.Perm.Subperm
import Mathlib.Data.List.TakeWhile
import Obelus.Live.RefinementReconciler
import Obelus.Transition.Reaches

/-!
# Speaker numbers

A live speaker gets the smallest free number and a refined one the length of the list plus
one.  Identifiers are hashes of names that repeat when a cluster is refined again.
-/

namespace Obelus.Live.Refinement

open Obelus.Data List
open Obelus.Transition

/-- `/Speaker (\d+)/.exec`: the number behind the first `Speaker ` that has one. -/
def speakerNumber? (label : String) : Option Nat :=
  label.toList.tails.findSome? fun behind =>
    let digits := (behind.drop "Speaker ".length).takeWhile Char.isDigit
    if "Speaker ".toList.isPrefixOf behind && !digits.isEmpty then
      some (Nat.ofDigitChars 10 digits 0)
    else none

/-- The loop of `nextSpeakerNumber`: the first number from `next` on that is free.  One of as
many numbers as there are used ones, and one more, is free. -/
def firstFree (used : List Nat) : Nat → Nat → Nat
  | 0, next => next
  | fuel + 1, next => if next ∈ used then firstFree used fuel (next + 1) else next

def nextSpeakerNumber (speakers : List Speaker) : Nat :=
  let used := speakers.filterMap fun speaker => speakerNumber? speaker.defaultLabel
  firstFree used used.length 1

structure SpeakerResolution where
  speaker : Option Speaker
  observation : Option SpeakerObservation
  speakers : List Speaker

def providerSpeakerId (host : Host) (providerSessionId providerLabel : String) : String :=
  stableLiveUuid host ("speaker:" ++ providerSessionId ++ ":" ++ providerLabel)

def findObservation (observations : List SpeakerObservation)
    (providerSessionId providerLabel : String) : Option SpeakerObservation :=
  observations.find? fun observation =>
    observation.providerSessionId = providerSessionId ∧ observation.providerLabel = providerLabel

/-- The label names a speaker. -/
def IsNamed (providerLabel : String) : Prop :=
  providerLabel ≠ "" ∧ providerLabel ≠ "UNKNOWN"

instance (providerLabel : String) : Decidable (IsNamed providerLabel) :=
  inferInstanceAs (Decidable (_ ∧ _))

def resolveProviderSpeaker (host : Host) (speakers : List Speaker)
    (observations : List SpeakerObservation) (providerSessionId : String)
    (providerLabel : Option String) (sourceHint : Option SourceKind) : SpeakerResolution :=
  match providerLabel.filter fun label => IsNamed label with
  | none => ⟨none, none, speakers⟩
  | some providerLabel =>
    match findObservation observations providerSessionId providerLabel with
    | some existingObservation =>
      { speakers
        speaker := speakers.find? fun speaker => speaker.id = existingObservation.speakerId
        observation := existingObservation }
    | none =>
      let speaker : Speaker :=
        { id := providerSpeakerId host providerSessionId providerLabel
          defaultLabel := speakerLabel (nextSpeakerNumber speakers)
          displayName := none
          displayNameSource := .generic
          manualAssignmentLocked := false
          sourceHint }
      { speakers := speakers ++ [speaker]
        speaker := some speaker
        observation := some ⟨providerSessionId, providerLabel, speaker.id, sourceHint⟩ }

structure SpeakerState where
  speakers : List Speaker
  observations : List SpeakerObservation

inductive SpeakerCall
  | resolve (providerSessionId : String) (providerLabel : Option String)
      (sourceHint : Option SourceKind)
  | refine (now : Number) (meetingId refinedVersionId : String)
      (liveTurns : List TranscriptTurn) (refinedSegments : List RefinedSegmentInput)
      (claims : List Claim)

/-- A call, with the returned speakers and observations carried forward. -/
def callSpeakers (host : Host) : Machine SpeakerState SpeakerCall Empty := fun state call =>
  match call with
  | .resolve providerSessionId providerLabel sourceHint =>
    let resolution := resolveProviderSpeaker host state.speakers state.observations
      providerSessionId providerLabel sourceHint
    let observed := resolution.observation.toList.filter fun observation =>
      observation ∉ state.observations
    some (⟨resolution.speakers, state.observations ++ observed⟩, [])
  | .refine now meetingId refinedVersionId liveTurns refinedSegments claims =>
    some ({ state with
      speakers := (reconcileRefinement host now meetingId refinedVersionId liveTurns
        refinedSegments state.speakers claims).speakers }, [])

/-- Identifiers and default labels are told apart. -/
structure UniqueSpeakers (speakers : List Speaker) : Prop where
  ids : (speakers.map Speaker.id).Nodup
  labels : (speakers.map Speaker.defaultLabel).Nodup

instance (speakers : List Speaker) : Decidable (UniqueSpeakers speakers) :=
  decidable_of_iff ((speakers.map Speaker.id).Nodup ∧ (speakers.map Speaker.defaultLabel).Nodup)
    ⟨fun both => ⟨both.1, both.2⟩, fun unique => ⟨unique.ids, unique.labels⟩⟩

theorem firstFree_not_mem {used : List Nat} {fuel next : Nat}
    (enough : ∃ number, next ≤ number ∧ number ≤ next + fuel ∧ number ∉ used) :
    firstFree used fuel next ∉ used := by
  induction fuel generalizing next with
  | zero =>
    obtain ⟨number, lower, upper, free⟩ := enough
    obtain rfl : number = next := Nat.le_antisymm upper lower
    exact free
  | succ fuel ih =>
    rw [firstFree]
    split
    · next isUsed =>
      obtain ⟨number, lower, upper, free⟩ := enough
      have above : next + 1 ≤ number := by
        apply Nat.lt_of_le_of_ne lower
        rintro rfl
        exact free isUsed
      exact ih ⟨number, above, by omega, free⟩
    · next isFree => exact isFree

/-- Among one number more than there are used ones, one is free. -/
theorem exists_free (used : List Nat) (next : Nat) :
    ∃ number, next ≤ number ∧ number ≤ next + used.length ∧ number ∉ used := by
  by_contra allUsed
  simp only [not_exists, not_and, not_not] at allUsed
  have inside : range' next (used.length + 1) ⊆ used := by
    intro number member
    obtain ⟨lower, upper⟩ := mem_range'_1.mp member
    exact allUsed number lower (by omega)
  have nodup : (range' next (used.length + 1)).Nodup := nodup_range'
  have shorter := (nodup.subperm inside).length_le
  rw [length_range'] at shorter
  omega

theorem speakerNumber?_speakerLabel (number : Nat) :
    speakerNumber? (speakerLabel number) = some number := by
  have digits : (toString number).toList = Nat.toDigits 10 number := by
    rw [Nat.toString_eq_ofList_toDigits, String.toList_ofList]
  have allDigits : (Nat.toDigits 10 number).takeWhile Char.isDigit = Nat.toDigits 10 number := by
    apply takeWhile_eq_self_iff.mpr
    exact fun c member => Nat.isDigit_of_mem_toDigits (by decide) (by decide) member
  have found : (Nat.toDigits 10 number).isEmpty = false := by
    rw [isEmpty_eq_false_iff]
    exact Nat.toDigits_ne_nil
  have value : Nat.ofDigitChars 10 (Nat.toDigits 10 number) 0 = number :=
    Nat.ofDigitChars_toDigits (by decide) (by decide)
  have letters : "Speaker ".toList = ['S', 'p', 'e', 'a', 'k', 'e', 'r', ' '] := by decide
  have length : "Speaker ".length = 8 := by decide
  unfold speakerNumber? speakerLabel
  rw [String.toList_append, digits, letters, length, cons_append, tails_cons, findSome?_cons]
  simp [allDigits]

/-- The label of a resolved speaker is new. -/
theorem speakerLabel_next_not_mem (speakers : List Speaker) :
    speakerLabel (nextSpeakerNumber speakers) ∉ speakers.map Speaker.defaultLabel := by
  intro member
  obtain ⟨speaker, inList, same⟩ := mem_map.mp member
  have isUsed : nextSpeakerNumber speakers ∈
      speakers.filterMap fun speaker => speakerNumber? speaker.defaultLabel :=
    mem_filterMap.mpr ⟨speaker, inList, by rw [same, speakerNumber?_speakerLabel]⟩
  exact firstFree_not_mem (exists_free _ 1) isUsed

theorem speakerLabel_injective : Function.Injective speakerLabel := by
  intro first second same
  have numbers := congrArg speakerNumber? same
  rw [speakerNumber?_speakerLabel, speakerNumber?_speakerLabel] at numbers
  exact Option.some.inj numbers

theorem UniqueSpeakers.append_iff {speakers new : List Speaker} (unique : UniqueSpeakers speakers) :
    UniqueSpeakers (speakers ++ new) ↔ UniqueSpeakers new ∧
      (∀ speaker ∈ new, speaker.id ∉ speakers.map Speaker.id) ∧
        ∀ speaker ∈ new, speaker.defaultLabel ∉ speakers.map Speaker.defaultLabel := by
  have apart : ∀ {κ : Type} (key : Speaker → κ), (speakers.map key).Nodup →
      (((speakers ++ new).map key).Nodup ↔
        (new.map key).Nodup ∧ ∀ speaker ∈ new, key speaker ∉ speakers.map key) := by
    intro κ key nodup
    rw [map_append, nodup_append]
    constructor
    · rintro ⟨-, newNodup, disjoint⟩
      exact ⟨newNodup, fun speaker member old => disjoint _ old _ (mem_map_of_mem member) rfl⟩
    · rintro ⟨newNodup, fresh⟩
      refine ⟨nodup, newNodup, ?_⟩
      rintro old oldMem _ newMem rfl
      obtain ⟨speaker, member, rfl⟩ := mem_map.mp newMem
      exact fresh speaker member oldMem
  have ids := apart Speaker.id unique.ids
  have labels := apart Speaker.defaultLabel unique.labels
  constructor
  · intro whole
    obtain ⟨newIds, freshIds⟩ := ids.mp whole.ids
    obtain ⟨newLabels, freshLabels⟩ := labels.mp whole.labels
    exact ⟨⟨newIds, newLabels⟩, freshIds, freshLabels⟩
  · rintro ⟨newUnique, freshIds, freshLabels⟩
    exact ⟨ids.mpr ⟨newUnique.ids, freshIds⟩, labels.mpr ⟨newUnique.labels, freshLabels⟩⟩

/-- The speakers made for clusters, numbered from `number` on. -/
def refinedSpeakers (host : Host) (meetingId : String) : Nat → List String → List Speaker
  | _, [] => []
  | number, cluster :: rest =>
    refinedSpeaker host meetingId cluster number ::
      refinedSpeakers host meetingId (number + 1) rest

section Refined

variable (host : Host) (meetingId : String) (number : Nat) (clusters : List String)

theorem map_id_refinedSpeakers : (refinedSpeakers host meetingId number clusters).map Speaker.id =
      clusters.map (refinedSpeakerId host meetingId) := by
  induction clusters generalizing number with
  | nil => rfl
  | cons cluster rest ih =>
    rw [refinedSpeakers, map_cons, ih]
    rfl

theorem map_defaultLabel_refinedSpeakers :
    (refinedSpeakers host meetingId number clusters).map Speaker.defaultLabel =
      (range' number clusters.length).map speakerLabel := by
  induction clusters generalizing number with
  | nil => rfl
  | cons cluster rest ih =>
    rw [refinedSpeakers, map_cons, ih]
    rfl

/-- The clusters that no live speaker dominates. -/
def newClusters (liveTurns : List TranscriptTurn) (refinedSegments : List RefinedSegmentInput) :
    List String :=
  (clustersOf refinedSegments).filter fun cluster =>
    dominantSpeaker liveTurns refinedSegments cluster = none

theorem speakers_foldl_mapCluster (liveTurns : List TranscriptTurn)
    (refinedSegments : List RefinedSegmentInput) (mapped : ClusterMapping) :
    (clusters.foldl (mapCluster host meetingId liveTurns refinedSegments) mapped).speakers =
      mapped.speakers ++ refinedSpeakers host meetingId (mapped.speakers.length + 1)
        (clusters.filter fun cluster =>
          dominantSpeaker liveTurns refinedSegments cluster = none) := by
  induction clusters generalizing mapped with
  | nil => simp [refinedSpeakers]
  | cons cluster rest ih =>
    rw [foldl_cons, ih]
    cases dominant : dominantSpeaker liveTurns refinedSegments cluster with
    | some speakerId =>
      simp [mapCluster, dominant]
    | none =>
      simp [mapCluster, dominant, refinedSpeakers]

end Refined

theorem speakers_reconcileRefinement (host : Host) (now : Number)
    (meetingId refinedVersionId : String) (liveTurns : List TranscriptTurn)
    (refinedSegments : List RefinedSegmentInput) (speakers : List Speaker) (claims : List Claim) :
    (reconcileRefinement host now meetingId refinedVersionId liveTurns refinedSegments speakers
      claims).speakers = speakers ++ refinedSpeakers host meetingId (speakers.length + 1)
        (newClusters liveTurns refinedSegments) :=
  speakers_foldl_mapCluster host meetingId _ liveTurns refinedSegments ⟨JsMap.empty, [], speakers⟩

/-- The identifier of a newly resolved speaker is not used. -/
def FreshResolution (host : Host) (state : SpeakerState) (providerSessionId : String)
    (providerLabel : Option String) : Prop :=
  ∀ label ∈ providerLabel, IsNamed label →
    findObservation state.observations providerSessionId label = none →
      providerSpeakerId host providerSessionId label ∉ state.speakers.map Speaker.id

/-- The identifiers of the new clusters are told apart and not used, and no speaker has a label
with one of the numbers behind the length of the list. -/
structure FreshRefinement (host : Host) (state : SpeakerState) (meetingId : String)
    (clusters : List String) : Prop where
  apart : (clusters.map (refinedSpeakerId host meetingId)).Nodup
  ids : ∀ cluster ∈ clusters,
    refinedSpeakerId host meetingId cluster ∉ state.speakers.map Speaker.id
  labels : ∀ number, state.speakers.length < number →
    number ≤ state.speakers.length + clusters.length →
      speakerLabel number ∉ state.speakers.map Speaker.defaultLabel

/-- A call makes only new identifiers and labels. -/
def freshCall (host : Host) : Guard SpeakerState SpeakerCall Empty := fun config call _ =>
  match call with
  | .resolve providerSessionId providerLabel _ =>
    FreshResolution host config.state providerSessionId providerLabel
  | .refine _ meetingId _ liveTurns refinedSegments _ =>
    FreshRefinement host config.state meetingId (newClusters liveTurns refinedSegments)

theorem unique_resolve_iff (host : Host) {state : SpeakerState} (providerSessionId : String)
    (providerLabel : Option String) (sourceHint : Option SourceKind)
    (unique : UniqueSpeakers state.speakers) :
    UniqueSpeakers (resolveProviderSpeaker host state.speakers state.observations
        providerSessionId providerLabel sourceHint).speakers ↔
      FreshResolution host state providerSessionId providerLabel := by
  unfold resolveProviderSpeaker FreshResolution
  cases named : providerLabel.filter fun label => IsNamed label with
  | none =>
    refine iff_of_true unique fun label given isNamed _ => ?_
    rw [Option.mem_def.mp given, Option.filter_some_pos (by simpa using isNamed)] at named
    cases named
  | some label =>
    obtain ⟨given, isNamed⟩ := Option.filter_eq_some_iff.mp named
    dsimp only
    cases observed : findObservation state.observations providerSessionId label with
    | some observation =>
      refine iff_of_true unique fun other givenOther _ unobserved => ?_
      obtain rfl : label = other := Option.mem_unique given givenOther
      rw [observed] at unobserved
      cases unobserved
    | none =>
      rw [show (∀ other ∈ providerLabel, IsNamed other →
          findObservation state.observations providerSessionId other = none →
            providerSpeakerId host providerSessionId other ∉ state.speakers.map Speaker.id) ↔
          providerSpeakerId host providerSessionId label ∉ state.speakers.map Speaker.id from
        ⟨fun all => all label given (by simpa using isNamed) observed,
          fun fresh other givenOther _ _ => Option.mem_unique given givenOther ▸ fresh⟩]
      rw [unique.append_iff]
      constructor
      · rintro ⟨-, freshIds, -⟩
        exact freshIds _ (mem_singleton_self _)
      · intro fresh
        refine ⟨⟨nodup_singleton _, nodup_singleton _⟩, ?_, ?_⟩
        · simpa using fresh
        · simpa using speakerLabel_next_not_mem state.speakers

theorem unique_refine_iff (host : Host) {state : SpeakerState} (meetingId : String)
    (clusters : List String) (unique : UniqueSpeakers state.speakers) :
    UniqueSpeakers (state.speakers ++
        refinedSpeakers host meetingId (state.speakers.length + 1) clusters) ↔
      FreshRefinement host state meetingId clusters := by
  have ids := map_id_refinedSpeakers host meetingId (state.speakers.length + 1) clusters
  have labels :=
    map_defaultLabel_refinedSpeakers host meetingId (state.speakers.length + 1) clusters
  rw [unique.append_iff]
  constructor
  · rintro ⟨newUnique, freshIds, freshLabels⟩
    constructor
    · rw [← ids]
      exact newUnique.ids
    · intro cluster member
      have isNew := mem_map_of_mem (f := refinedSpeakerId host meetingId) member
      rw [← ids] at isNew
      obtain ⟨speaker, isMade, same⟩ := mem_map.mp isNew
      rw [← same]
      exact freshIds speaker isMade
    · intro number above upTo
      have inRange : number ∈ range' (state.speakers.length + 1) clusters.length :=
        mem_range'_1.mpr ⟨above, by omega⟩
      have isNew := mem_map_of_mem (f := speakerLabel) inRange
      rw [← labels] at isNew
      obtain ⟨speaker, isMade, same⟩ := mem_map.mp isNew
      rw [← same]
      exact freshLabels speaker isMade
  · intro fresh
    refine ⟨⟨?_, ?_⟩, ?_, ?_⟩
    · rw [ids]
      exact fresh.apart
    · rw [labels]
      exact (nodup_range').map speakerLabel_injective
    · intro speaker isMade
      have isNew := mem_map_of_mem (f := Speaker.id) isMade
      rw [ids] at isNew
      obtain ⟨cluster, member, same⟩ := mem_map.mp isNew
      rw [← same]
      exact fresh.ids cluster member
    · intro speaker isMade
      have isNew := mem_map_of_mem (f := Speaker.defaultLabel) isMade
      rw [labels] at isNew
      obtain ⟨number, inRange, same⟩ := mem_map.mp isNew
      obtain ⟨above, upTo⟩ := mem_range'_1.mp inRange
      rw [← same]
      exact fresh.labels number above (by omega)

/-- Calls that start with unique speakers keep them unique exactly as long as each call makes
only new identifiers and labels. -/
theorem uniqueSpeakers_throughout_iff (host : Host) {start : SpeakerState}
    (unique : UniqueSpeakers start.speakers) (calls : List SpeakerCall) :
    Throughout (callSpeakers host) (fun config => UniqueSpeakers config.state.speakers)
        (Config.initial start) calls ↔
      Admissible (callSpeakers host) (freshCall host) (Config.initial start) calls := by
  have total : Admissible (callSpeakers host) (fun _ _ _ => True) (Config.initial start) calls := by
    generalize Config.initial start = config
    induction calls generalizing config with
    | nil => trivial
    | cons call rest ih =>
      cases call with
      | resolve => exact ⟨trivial, ih _⟩
      | refine => exact ⟨trivial, ih _⟩
  apply throughout_iff_admissible _ unique total
  intro config next call unique advanced _
  cases call with
  | resolve providerSessionId providerLabel sourceHint =>
    cases advanced
    exact unique_resolve_iff host providerSessionId providerLabel sourceHint unique
  | refine now meetingId refinedVersionId liveTurns refinedSegments claims =>
    cases advanced
    have speakers := speakers_reconcileRefinement host now meetingId refinedVersionId liveTurns
      refinedSegments config.state.speakers claims
    have unique_iff := unique_refine_iff host meetingId
      (newClusters liveTurns refinedSegments) unique
    rw [← speakers] at unique_iff
    exact unique_iff

/-- A host whose hashes are the hashed names. -/
def namingHost : Host :=
  { recordedHost with uuidv5 := fun name _ => name }

def recordedSegment : RefinedSegmentInput where
  id := "refined-1"
  speakerCluster := "A"
  text := "A newly identified speaker."
  startMs := 0
  endMs := 1000
  words := []

/-- A speaker of the live session. -/
def recordedResolve : SpeakerCall :=
  .resolve "session-1" (some "A") (some .mixed)

/-- A refinement with one cluster and no live turns. -/
def recordedRefine : SpeakerCall :=
  .refine 0 "meeting-1" "refined-1" [] [recordedSegment] []

/-- A live speaker and a refined one. -/
theorem uniqueSpeakers_throughout_refined :
    Throughout (callSpeakers namingHost) (fun config => UniqueSpeakers config.state.speakers)
      (Config.initial ⟨[], []⟩) [recordedResolve, recordedRefine] := by
  apply (@uniqueSpeakers_throughout_iff namingHost ⟨[], []⟩ (by decide) _).mpr
  refine ⟨fun _ _ _ _ => not_mem_nil, ⟨?_, ?_, ?_⟩, trivial⟩
  · decide +kernel
  · decide +kernel
  · intro number above upTo
    obtain rfl : number = 2 := Nat.le_antisymm upTo above
    decide +kernel

/-- The same meeting is refined a second time. -/
theorem not_uniqueSpeakers_refinedAgain :
    ¬Throughout (callSpeakers namingHost) (fun config => UniqueSpeakers config.state.speakers)
      (Config.initial ⟨[], []⟩) [recordedRefine, recordedRefine] := by
  rintro ⟨-, -, unique⟩
  exact absurd (show UniqueSpeakers _ from unique) (by decide +kernel)

end Obelus.Live.Refinement
