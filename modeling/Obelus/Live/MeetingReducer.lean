import Obelus.Live.TranscriptReconciler

/-!
# The transcript part of the meeting reducer

`provider_turn` replaces the active turn of an event's key unless the event's
revision is not larger than the stored one; `speaker_revision` rewrites the
speaker and the words of active turns and counts their revision up.
-/

namespace Obelus.Live

open Obelus.Data List

/-- The record of active turns: every turn is stored under its own key. -/
structure ActiveTurns where
  turns : JsMap String TranscriptTurn
  keyed : ∀ key turn, turns.get? key = some turn → key = turnKey turn

namespace ActiveTurns

def empty : ActiveTurns where
  turns := JsMap.empty
  keyed _ _ found := by simp at found

/-- `Object.fromEntries` over turns and their keys. -/
def ofTurns (turns : List TranscriptTurn) : ActiveTurns where
  turns := JsMap.ofEntries (turns.map fun turn => (turnKey turn, turn))
  keyed key turn found := by
    rw [JsMap.get?_ofElements] at found
    exact (lookup_eq_some found).2.symm

/-- Assign a turn to its key. -/
def put (active : ActiveTurns) (turn : TranscriptTurn) : ActiveTurns where
  turns := active.turns.set (turnKey turn) turn
  keyed key other found := by
    rw [JsMap.get?_set] at found
    split at found
    · rename_i here
      rw [here, Option.some.inj found]
    · exact active.keyed key other found

def get? (active : ActiveTurns) (key : String) : Option TranscriptTurn :=
  active.turns.get? key

def values (active : ActiveTurns) : List TranscriptTurn :=
  active.turns.values

theorem get?_put (active : ActiveTurns) (turn : TranscriptTurn) (key : String) :
    (active.put turn).get? key = if key = turnKey turn then some turn else active.get? key :=
  JsMap.get?_set _ _ _ _

theorem keys_values (active : ActiveTurns) : active.values.map turnKey = active.turns.keys :=
  JsMap.map_key_values active.keyed

theorem nodup_keys_values (active : ActiveTurns) : (active.values.map turnKey).Nodup := by
  rw [keys_values]
  exact active.turns.nodup

variable {active : ActiveTurns} {turn : TranscriptTurn} {turns : List TranscriptTurn}

theorem mem_values_iff : turn ∈ active.values ↔ active.get? (turnKey turn) = some turn := by
  constructor
  · intro member
    obtain ⟨key, found⟩ := JsMap.mem_values_iff.mp member
    rwa [active.keyed key turn found] at found
  · exact fun found => JsMap.mem_values_iff.mpr ⟨_, found⟩

/-- A record made from turns with distinct keys answers these turns. -/
theorem get?_ofTurns (nodup : (turns.map turnKey).Nodup) {key : String} :
    (ofTurns turns).get? key = some turn ↔ turn ∈ turns ∧ key = turnKey turn := by
  have reversed : (turns.reverse.map turnKey).Nodup := by rwa [map_reverse, nodup_reverse]
  rw [get?, ofTurns, JsMap.get?_ofElements, lookup_eq_some_iff reversed, mem_reverse]
  exact and_congr_right fun _ => eq_comm

/-- Rebuilding the record from its turns in another order changes no answer. -/
theorem get?_ofTurns_of_perm (perm : turns.Perm active.values) (key : String) :
    (ofTurns turns).get? key = active.get? key := by
  have nodup : (turns.map turnKey).Nodup :=
    (perm.map turnKey).nodup_iff.mpr active.nodup_keys_values
  apply Option.ext
  intro turn
  rw [get?_ofTurns nodup, perm.mem_iff, mem_values_iff]
  constructor
  · rintro ⟨found, rfl⟩
    exact found
  · intro found
    have here := active.keyed key turn found
    exact ⟨here ▸ found, here⟩

end ActiveTurns

structure RuntimeSnapshot where
  meetingId : Option String

/-- The part of the meeting state that the transcript actions touch. -/
structure LiveMeetingState where
  runtime : RuntimeSnapshot
  artifact : Option MeetingArtifact
  activeTurns : ActiveTurns
  turnOrder : List String
  followingLive : Bool
  unseenFinalTurns : Nat

def initialMeetingState : LiveMeetingState where
  runtime := ⟨none⟩
  artifact := none
  activeTurns := ActiveTurns.empty
  turnOrder := []
  followingLive := true
  unseenFinalTurns := 0

/-- The comparison by which the shown turns are ordered. -/
def compareOrderedTurns (host : Host) (left right : TranscriptTurn) : Number :=
  if left.startMs ≠ right.startMs then left.startMs - right.startMs
  else if left.providerSessionId ≠ right.providerSessionId then
    host.localeCompare left.providerSessionId right.providerSessionId
  else left.providerTurnOrder - right.providerTurnOrder

def orderedTurnKeys (host : Host) (active : ActiveTurns) : List String :=
  (active.turns.entries.insertionSort fun left right =>
    compareOrderedTurns host left.2 right.2 ≤ 0).map Prod.fst

/-- What a `provider_turn` action carries beside its event. -/
structure ProviderTurnContext where
  speakerId : Option String
  turnId : Option String
  sourceKind : Option SourceKind
  provider : Option String
  deriving DecidableEq

inductive MeetingAction
  | providerTurn (event : ProviderTurnEvent) (context : ProviderTurnContext)
  | speakerRevision (event : ProviderSpeakerRevisionEvent)

/-- The turn `applyProviderTurn` builds for an event. -/
def providerTurn (state : LiveMeetingState) (event : ProviderTurnEvent)
    (context : ProviderTurnContext) : TranscriptTurn :=
  let key := transcriptTurnKey event.providerSessionId event.turnId
  let previous := state.activeTurns.get? key
  let isFinal := event.durableFinal
  { id := ((previous.map (·.id)).orElse fun _ => context.turnId).getD key
    meetingId := (state.runtime.meetingId.orElse fun _ => state.artifact.map (·.id)).getD ""
    transcriptVersionId := ((previous.map (·.transcriptVersionId)).orElse fun _ =>
      state.artifact.bind (·.liveTranscriptVersionId)).getD "live-pending"
    provider := context.provider.getD "assemblyai"
    providerSessionId := event.providerSessionId
    providerTurnId := event.turnId
    providerTurnOrder := event.turnOrder
    revision := event.revision
    status := if isFinal then (if previous.isSome then .revised else .final) else .partialText
    speakerId := context.speakerId.orElse fun _ => previous.bind (·.speakerId)
    provisionalSpeakerLabel := event.speakerLabel.orElse fun _ =>
      previous.bind (·.provisionalSpeakerLabel)
    sourceKind := (previous.map (·.sourceKind)).getD (context.sourceKind.getD .mixed)
    startMs := event.startMs
    endMs := event.endMs
    text := event.transcript
    words := event.words
    utteranceBoundary := event.utteranceBoundary
    endOfTurn := event.endOfTurn
    formatted := event.turnIsFormatted
    receivedAtMs := event.receivedAtMs
    finalizedAtMs := (previous.bind (·.finalizedAtMs)).orElse fun _ =>
      if isFinal then some event.receivedAtMs else none }

@[simp]
theorem turnKey_providerTurn (state : LiveMeetingState) (event : ProviderTurnEvent)
    (context : ProviderTurnContext) : turnKey (providerTurn state event context) =
      transcriptTurnKey event.providerSessionId event.turnId :=
  rfl

def applyProviderTurn (host : Host) (state : LiveMeetingState) (event : ProviderTurnEvent)
    (context : ProviderTurnContext) : LiveMeetingState :=
  let key := transcriptTurnKey event.providerSessionId event.turnId
  let previous := state.activeTurns.get? key
  if previous.any fun stored => event.revision ≤ stored.revision then state
  else
    let wasFinal := previous.any fun stored => stored.status = .final || stored.status = .revised
    let isFinal := event.durableFinal
    let turn := providerTurn state event context
    let activeTurns :=
      ActiveTurns.ofTurns (deduplicateSourceBleed host (state.activeTurns.put turn).values)
    let newlyFinalized := isFinal && !wasFinal && (activeTurns.get? key).isSome
    { state with
      activeTurns
      turnOrder := orderedTurnKeys host activeTurns
      unseenFinalTurns :=
        if newlyFinalized && !state.followingLive then state.unseenFinalTurns + 1
        else state.unseenFinalTurns }

/-- The turn `applySpeakerRevision` puts in the place of another one. -/
def revisedTurn (turn : TranscriptTurn) (revision : SpeakerRevision) : TranscriptTurn :=
  { turn with
    provisionalSpeakerLabel := some revision.speakerLabel
    words := if revision.words.isEmpty then turn.words else revision.words
    revision := turn.revision + 1
    status := if turn.status = .partialText then .partialText else .revised }

/-- One iteration of the loop in `applySpeakerRevision`.  The words of a turn
and of a revision are compared by their JSON texts, which agree exactly when
the words do. -/
def reviseSpeaker (providerSessionId : String) (current : Bool × ActiveTurns)
    (revision : SpeakerRevision) : Bool × ActiveTurns :=
  match current.2.values.find? fun turn =>
      turn.providerSessionId = providerSessionId && turn.providerTurnOrder = revision.turnOrder with
  | none => current
  | some turn =>
    if turn.provisionalSpeakerLabel = some revision.speakerLabel &&
        turn.words = revision.words then current
    else (true, current.2.put (revisedTurn turn revision))

def applySpeakerRevision (state : LiveMeetingState) (event : ProviderSpeakerRevisionEvent) :
    LiveMeetingState :=
  let (changed, activeTurns) :=
    event.revisions.foldl (reviseSpeaker event.providerSessionId) (false, state.activeTurns)
  if changed then { state with activeTurns } else state

/-- The reducer ignores provider turns while another meeting's artifact is
shown. -/
def acceptsProviderTurns (state : LiveMeetingState) : Bool :=
  match state.runtime.meetingId, state.artifact with
  | some meetingId, some artifact => meetingId = "" || artifact.id = meetingId
  | _, _ => true

def meetingReducer (host : Host) (state : LiveMeetingState) : MeetingAction → LiveMeetingState
  | .providerTurn event context =>
    if acceptsProviderTurns state then applyProviderTurn host state event context else state
  | .speakerRevision event => applySpeakerRevision state event

section Actions

variable {host : Host} {state : LiveMeetingState} {event : ProviderTurnEvent}
  {context : ProviderTurnContext}

/-- The event is new to the active turns: its key is free, or stores a smaller
revision. -/
def Newer (state : LiveMeetingState) (event : ProviderTurnEvent) : Prop :=
  ∀ stored ∈ state.activeTurns.get? (transcriptTurnKey event.providerSessionId event.turnId),
    stored.revision < event.revision

instance : Decidable (Newer state event) :=
  inferInstanceAs (Decidable (∀ stored ∈ state.activeTurns.get? _, _))

/-- No two of the turns are bleed of each other. -/
def BleedFree (host : Host) (turns : List TranscriptTurn) : Prop :=
  ∀ left ∈ turns, ∀ right ∈ turns, likelyBleedDuplicate host left right = false

instance (turns : List TranscriptTurn) : Decidable (BleedFree host turns) :=
  inferInstanceAs (Decidable (∀ left ∈ turns, ∀ right ∈ turns, _))

theorem applyProviderTurn_of_not_newer (stale : ¬Newer state event) :
    applyProviderTurn host state event context = state := by
  simp only [Newer, not_forall] at stale
  obtain ⟨stored, found, bound⟩ := stale
  simp [applyProviderTurn, Option.mem_def.mp found, bound]

/-- A newer event puts its turn under its key and leaves the others alone. -/
theorem get?_applyProviderTurn (newer : Newer state event)
    (bleedFree : BleedFree host (state.activeTurns.put (providerTurn state event context)).values)
    (key : String) : (applyProviderTurn host state event context).activeTurns.get? key =
      if key = transcriptTurnKey event.providerSessionId event.turnId then
        some (providerTurn state event context)
      else state.activeTurns.get? key := by
  have fresh : ((state.activeTurns.get?
      (transcriptTurnKey event.providerSessionId event.turnId)).any fun stored =>
        event.revision ≤ stored.revision) = false := by
    rw [Option.any_eq_false]
    intro stored found
    simpa using newer stored found
  unfold applyProviderTurn
  rw [if_neg (by simp [fresh])]
  rw [ActiveTurns.get?_ofTurns_of_perm (deduplicateSourceBleed_perm
    (ActiveTurns.nodup_keys_values _) bleedFree), ActiveTurns.get?_put, turnKey_providerTurn]

/-- Under every key the turns are related, or there is none on either side. -/
def Related (relation : TranscriptTurn → TranscriptTurn → Prop) (before after : ActiveTurns) :
    Prop :=
  ∀ key, Option.Rel relation (before.get? key) (after.get? key)

section Related

variable {relation : TranscriptTurn → TranscriptTurn → Prop}
  (reflexive : ∀ turn, relation turn turn)
  (transitive : ∀ first second third, relation first second → relation second third →
    relation first third)

include reflexive in
theorem related_refl (active : ActiveTurns) : Related relation active active := by
  intro key
  cases active.get? key with
  | none => exact .none
  | some turn => exact .some (reflexive turn)

include transitive in
theorem Related.trans {first second third : ActiveTurns} (before : Related relation first second)
    (after : Related relation second third) : Related relation first third := by
  intro key
  have firstSecond := before key
  have secondThird := after key
  revert firstSecond secondThird
  generalize first.get? key = x, second.get? key = y, third.get? key = z
  rintro (firstSecond | _) (secondThird | _)
  · exact .some (transitive _ _ _ firstSecond secondThird)
  · exact .none

include reflexive in
/-- A turn may be replaced by one it is related to. -/
theorem related_put {active : ActiveTurns} {turn revised : TranscriptTurn}
    (stored : active.get? (turnKey turn) = some turn) (sameKey : turnKey revised = turnKey turn)
    (related : relation turn revised) : Related relation active (active.put revised) := by
  intro key
  rw [ActiveTurns.get?_put, sameKey]
  split
  · next here =>
    rw [here, stored]
    exact .some related
  · exact related_refl reflexive active key

variable {before after : ActiveTurns} {key : String}

theorem Related.some_iff (related : Related relation before after) (key : String) :
    (after.get? key).isSome = (before.get? key).isSome := by
  have here := related key
  revert here
  generalize before.get? key = x, after.get? key = y
  rintro (_ | _) <;> rfl

theorem Related.exists_before (related : Related relation before after) {turn : TranscriptTurn}
    (found : after.get? key = some turn) :
    ∃ old, before.get? key = some old ∧ relation old turn := by
  have here := related key
  rw [found] at here
  generalize before.get? key = x at here
  cases here with
  | some related => exact ⟨_, rfl, related⟩

theorem Related.exists_after (related : Related relation before after) {turn : TranscriptTurn}
    (found : before.get? key = some turn) :
    ∃ new, after.get? key = some new ∧ relation turn new := by
  have here := related key
  rw [found] at here
  generalize after.get? key = x at here
  cases here with
  | some related => exact ⟨_, rfl, related⟩

variable (revises : ∀ turn revision, relation turn (revisedTurn turn revision))

include reflexive revises in
theorem related_reviseSpeaker (providerSessionId : String) (current : Bool × ActiveTurns)
    (revision : SpeakerRevision) :
    Related relation current.2 (reviseSpeaker providerSessionId current revision).2 := by
  unfold reviseSpeaker
  split
  · exact related_refl reflexive _
  · next turn found =>
    split
    · exact related_refl reflexive _
    · exact related_put reflexive (ActiveTurns.mem_values_iff.mp (mem_of_find?_eq_some found)) rfl
        (revises turn revision)

include reflexive transitive revises in
/-- Speaker revisions relate every turn to its revised turn. -/
theorem related_applySpeakerRevision (state : LiveMeetingState)
    (event : ProviderSpeakerRevisionEvent) :
    Related relation state.activeTurns (applySpeakerRevision state event).activeTurns := by
  have kept : ∀ (revisions : List SpeakerRevision) (current : Bool × ActiveTurns),
      Related relation current.2
        (revisions.foldl (reviseSpeaker event.providerSessionId) current).2 := by
    intro revisions
    induction revisions with
    | nil => exact fun current => related_refl reflexive current.2
    | cons revision rest ih =>
      intro current
      exact (related_reviseSpeaker reflexive revises _ current revision).trans transitive (ih _)
  unfold applySpeakerRevision
  dsimp only
  split
  · exact kept event.revisions (false, state.activeTurns)
  · exact related_refl reflexive _

end Related

/-- The place and the text of a stored turn, which speaker revisions keep. -/
def shownText (active : ActiveTurns) (key : String) : Option (Number × String) :=
  (active.get? key).map fun turn => (turn.providerTurnOrder, turn.text)

theorem shownText_applySpeakerRevision (event : ProviderSpeakerRevisionEvent) (key : String) :
    shownText (applySpeakerRevision state event).activeTurns key =
      shownText state.activeTurns key := by
  have related := @related_applySpeakerRevision
    (fun before after => (after.providerTurnOrder, after.text) =
      (before.providerTurnOrder, before.text))
    (fun _ => rfl) (fun _ _ _ before after => after.trans before) (fun _ _ => rfl) state event key
  rw [shownText, shownText]
  revert related
  generalize state.activeTurns.get? key = before,
    (applySpeakerRevision state event).activeTurns.get? key = after
  rintro (same | _)
  · exact congrArg some same
  · rfl

end Actions

end Obelus.Live
