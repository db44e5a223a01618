import Obelus.Live.SourceBleed

/-!
# All actions of the meeting reducer

The transcript part of the meeting state under every action.  `provider_turn` and
`artifact_loaded` compute the order of the turns anew, a start and `cleared` empty it, and
every other action replaces turns by turns with the same place, or none at all.

The setup, the speakers, the timeline, the claims and the view have no part in it, and an
action on them alone leaves this part of the state as it is.
-/

namespace Obelus.Live

open Obelus.Data List

inductive MeetingLifecycle
  | setup
  | starting
  | recording
  | paused
  | stopping
  | finalizing
  | complete
  | interrupted
  | error
  deriving DecidableEq

/-- The transcript part of the state with the lifecycle of the runtime snapshot. -/
structure MeetingSession extends LiveMeetingState where
  lifecycle : MeetingLifecycle

namespace ActiveTurns

/-- Replace every turn by one with the same key. -/
def mapTurns (active : ActiveTurns) (update : TranscriptTurn → TranscriptTurn)
    (sameKey : ∀ turn, turnKey (update turn) = turnKey turn) : ActiveTurns where
  turns :=
    { entries := active.turns.entries.map fun entry => (entry.1, update entry.2)
      nodup := by simpa [Function.comp_def] using active.turns.nodup }
  keyed key turn found := by
    obtain ⟨⟨own, old⟩, member, same⟩ := mem_map.mp (JsMap.mem_entries_iff.mpr found)
    cases same
    rw [sameKey]
    exact active.keyed _ old (JsMap.mem_entries_iff.mp member)

theorem get?_mapTurns (active : ActiveTurns) (update : TranscriptTurn → TranscriptTurn)
    (sameKey : ∀ turn, turnKey (update turn) = turnKey turn) (key : String) :
    (active.mapTurns update sameKey).get? key = (active.get? key).map update := by
  simp only [get?, mapTurns, JsMap.get?, find?_map, Function.comp_def, Option.map_map]

end ActiveTurns

namespace MeetingSession

def initialMeetingState : MeetingSession where
  toLiveMeetingState := Obelus.Live.initialMeetingState
  lifecycle := .setup

inductive Action
  | setupUpdated
  | meetingStartRequested
  | runtimeUpdated (snapshot : RuntimeSnapshot) (lifecycle : MeetingLifecycle)
  | artifactLoaded (artifact : MeetingArtifact) (turns : List TranscriptTurn)
  | transcript (action : MeetingAction)
  | speakerRenamed
  | speakersReplaced
  | speakersSwapped (firstSpeakerId secondSpeakerId : String)
  | turnRelabelled (turnId speakerId : String)
  | timelineAdded
  | claimUpserted
  | claimStatusChanged
  | assessmentUpserted
  | claimSelected
  | viewVersionChanged
  | followingLiveChanged (following : Bool)
  | jumpedToLive
  | claimRailChanged
  | backpressureChanged
  | failed
  | captureWarningRecovered
  | errorCleared
  | cleared

/-- While a meeting is live, only its own artifact is loaded. -/
def refusesArtifact (session : MeetingSession) (artifact : MeetingArtifact) : Bool :=
  session.lifecycle ∈ [.starting, .recording, .paused, .stopping, .finalizing] &&
    match session.runtime.meetingId with
    | none => true
    | some meetingId => meetingId = "" || artifact.id ≠ meetingId

def swappedSpeaker (firstSpeakerId secondSpeakerId : String) (turn : TranscriptTurn) :
    TranscriptTurn :=
  { turn with
    speakerId :=
      if turn.speakerId = some firstSpeakerId then some secondSpeakerId
      else if turn.speakerId = some secondSpeakerId then some firstSpeakerId
      else turn.speakerId }

def relabelled (turnId speakerId : String) (turn : TranscriptTurn) : TranscriptTurn :=
  if turn.id = turnId then { turn with speakerId := some speakerId } else turn

theorem turnKey_relabelled (turnId speakerId : String) (turn : TranscriptTurn) :
    turnKey (relabelled turnId speakerId turn) = turnKey turn := by
  unfold relabelled
  split <;> rfl

def meetingReducer (host : Host) (session : MeetingSession) : Action → MeetingSession
  | .meetingStartRequested => { initialMeetingState with lifecycle := .starting }
  | .runtimeUpdated snapshot lifecycle => { session with runtime := snapshot, lifecycle }
  | .artifactLoaded artifact turns =>
    if session.refusesArtifact artifact then session
    else
      let activeTurns := ActiveTurns.ofTurns turns
      { session with
        artifact := some artifact
        activeTurns
        turnOrder := orderedTurnKeys host activeTurns }
  | .transcript action =>
    { session with
      toLiveMeetingState := Obelus.Live.meetingReducer host session.toLiveMeetingState action }
  | .speakersSwapped firstSpeakerId secondSpeakerId =>
    { session with
      activeTurns := session.activeTurns.mapTurns
        (swappedSpeaker firstSpeakerId secondSpeakerId) fun _ => rfl }
  | .turnRelabelled turnId speakerId =>
    { session with
      activeTurns := session.activeTurns.mapTurns (relabelled turnId speakerId)
        (turnKey_relabelled turnId speakerId) }
  | .followingLiveChanged following => { session with followingLive := following }
  | .jumpedToLive => { session with followingLive := true, unseenFinalTurns := 0 }
  | .cleared => initialMeetingState
  | _ => session

end MeetingSession

def TranscriptTurn.IsSettled (turn : TranscriptTurn) : Prop :=
  turn.status = .final ∨ turn.status = .revised

/-- The second turn stands in the place of the first, and is not behind it. -/
structure Continues (before after : TranscriptTurn) : Prop where
  startMs : after.startMs = before.startMs
  providerSessionId : after.providerSessionId = before.providerSessionId
  providerTurnOrder : after.providerTurnOrder = before.providerTurnOrder
  revision : before.revision ≤ after.revision
  settled : before.IsSettled → after.IsSettled

theorem continues_refl (turn : TranscriptTurn) : Continues turn turn :=
  ⟨rfl, rfl, rfl, le_rfl, id⟩

theorem continues_trans (first second third : TranscriptTurn) (before : Continues first second)
    (after : Continues second third) : Continues first third :=
  ⟨after.startMs.trans before.startMs, after.providerSessionId.trans before.providerSessionId,
    after.providerTurnOrder.trans before.providerTurnOrder, before.revision.trans after.revision,
    after.settled ∘ before.settled⟩

theorem continues_revisedTurn (turn : TranscriptTurn) (revision : SpeakerRevision) :
    Continues turn (revisedTurn turn revision) where
  startMs := rfl
  providerSessionId := rfl
  providerTurnOrder := rfl
  revision := Nat.le_succ _
  settled settled := by
    have shown : turn.status ≠ .partialText := by
      rcases settled with final | revised
      · simp [final]
      · simp [revised]
    exact Or.inr (if_neg shown)

theorem related_mapTurns {active : ActiveTurns} {update : TranscriptTurn → TranscriptTurn}
    (sameKey : ∀ turn, turnKey (update turn) = turnKey turn)
    (continues : ∀ turn, Continues turn (update turn)) :
    Related Continues active (active.mapTurns update sameKey) := by
  intro key
  rw [ActiveTurns.get?_mapTurns]
  cases active.get? key with
  | none => exact .none
  | some turn => exact .some (continues turn)

namespace MeetingSession

/-- The actions after which the turns are other ones, or stand in another order. -/
def Action.Rebuilds : Action → Prop
  | .meetingStartRequested | .artifactLoaded _ _ | .cleared => True
  | .transcript (.providerTurn _ _) => True
  | _ => False

/-- Every other action continues the turns in their order. -/
theorem related_of_not_rebuilds (host : Host) (session : MeetingSession) {action : Action}
    (keeps : ¬action.Rebuilds) :
    (meetingReducer host session action).turnOrder = session.turnOrder ∧
      Related Continues session.activeTurns (meetingReducer host session action).activeTurns := by
  cases action with
  | meetingStartRequested => exact absurd trivial keeps
  | artifactLoaded => exact absurd trivial keeps
  | cleared => exact absurd trivial keeps
  | transcript action =>
    cases action with
    | providerTurn => exact absurd trivial keeps
    | speakerRevision event =>
      constructor
      · change (applySpeakerRevision session.toLiveMeetingState event).turnOrder = _
        unfold applySpeakerRevision
        dsimp only
        split <;> rfl
      · exact related_applySpeakerRevision continues_refl continues_trans
          continues_revisedTurn session.toLiveMeetingState event
  | speakersSwapped firstSpeakerId secondSpeakerId =>
    exact ⟨rfl, @related_mapTurns session.activeTurns (swappedSpeaker firstSpeakerId
      secondSpeakerId) (fun _ => rfl) fun _ => ⟨rfl, rfl, rfl, le_rfl, id⟩⟩
  | turnRelabelled turnId speakerId =>
    refine ⟨rfl, related_mapTurns (turnKey_relabelled turnId speakerId) fun turn => ?_⟩
    unfold relabelled
    split
    · exact ⟨rfl, rfl, rfl, le_rfl, id⟩
    · exact continues_refl turn
  | _ => exact ⟨rfl, related_refl continues_refl _⟩

end MeetingSession

/-- The order by start, provider session and place in the session. -/
def OrderedBefore (host : Host) (left right : TranscriptTurn) : Prop :=
  left.startMs < right.startMs ∨ left.startMs = right.startMs ∧
    (host.localeCompare left.providerSessionId right.providerSessionId < 0 ∨
      host.localeCompare left.providerSessionId right.providerSessionId = 0 ∧
        left.providerTurnOrder ≤ right.providerTurnOrder)

instance (host : Host) (left right : TranscriptTurn) : Decidable (OrderedBefore host left right) :=
  inferInstanceAs (Decidable (_ ∨ _ ∧ (_ ∨ _ ∧ _)))

/-- The keys stand in the order of their turns. -/
def TurnsSorted (host : Host) (state : LiveMeetingState) : Prop :=
  state.turnOrder.Pairwise fun first second =>
    ∀ left ∈ state.activeTurns.get? first, ∀ right ∈ state.activeTurns.get? second,
      OrderedBefore host left right

instance (host : Host) (state : LiveMeetingState) : Decidable (TurnsSorted host state) :=
  inferInstanceAs (Decidable (List.Pairwise (fun first second =>
    ∀ left ∈ state.activeTurns.get? first, ∀ right ∈ state.activeTurns.get? second,
      OrderedBefore host left right) state.turnOrder))

/-- The provider sessions of the turns are told apart by the comparison of their ids. -/
def SessionsApart (host : Host) (active : ActiveTurns) : Prop :=
  ∀ first second, ∀ left ∈ active.get? first, ∀ right ∈ active.get? second,
    host.localeCompare left.providerSessionId right.providerSessionId = 0 →
      left.providerSessionId = right.providerSessionId

/-- The order lists every key once, and every turn is stored under its key. -/
structure MirrorsKeys (state : LiveMeetingState) : Prop where
  nodup : state.turnOrder.Nodup
  mem_iff : ∀ key, key ∈ state.turnOrder ↔ (state.activeTurns.get? key).isSome = true
  keyed : ∀ key turn, state.activeTurns.get? key = some turn →
    key = transcriptTurnKey turn.providerSessionId turn.providerTurnId

section Order

variable {host : Host}

theorem localeCompare_self (collates : host.Collates) (text : String) :
    host.localeCompare text text = 0 := by
  have swap := collates.swap text text
  omega

theorem compareOrderedTurns_nonpos_iff (collates : host.Collates) {left right : TranscriptTurn}
    (apart : host.localeCompare left.providerSessionId right.providerSessionId = 0 →
      left.providerSessionId = right.providerSessionId) :
    compareOrderedTurns host left right ≤ 0 ↔ OrderedBefore host left right := by
  unfold compareOrderedTurns OrderedBefore
  by_cases start : left.startMs = right.startMs
  · by_cases session : left.providerSessionId = right.providerSessionId
    · simp [start, session, localeCompare_self collates]
    · have untied : host.localeCompare left.providerSessionId right.providerSessionId ≠ 0 :=
        fun tie => session (apart tie)
      simp only [start, session, ne_eq, not_true_eq_false, if_false, not_false_eq_true, if_true,
        lt_irrefl, true_and, false_or, Int.cast_nonpos]
      omega
  · simp only [start, ne_eq, not_false_eq_true, if_true, false_and, or_false, sub_nonpos]
    exact ⟨fun le => lt_of_le_of_ne le start, le_of_lt⟩

theorem orderedBefore_trans (collates : host.Collates) (first second third : TranscriptTurn)
    (before : OrderedBefore host first second) (after : OrderedBefore host second third) :
    OrderedBefore host first third := by
  have forward := collates.trans first.providerSessionId second.providerSessionId
    third.providerSessionId
  have around := collates.trans third.providerSessionId first.providerSessionId
    second.providerSessionId
  have back := collates.trans second.providerSessionId third.providerSessionId
    first.providerSessionId
  have swapFirst' := collates.swap second.providerSessionId first.providerSessionId
  have swapSecond' := collates.swap third.providerSessionId second.providerSessionId
  have swapThird' := collates.swap third.providerSessionId first.providerSessionId
  unfold OrderedBefore at before after ⊢
  grind

theorem orderedBefore_total (collates : host.Collates) (left right : TranscriptTurn) :
    OrderedBefore host left right ∨ OrderedBefore host right left := by
  have swap := collates.swap left.providerSessionId right.providerSessionId
  have swap' := collates.swap right.providerSessionId left.providerSessionId
  unfold OrderedBefore
  grind

theorem orderedTurnKeys_perm (host : Host) (active : ActiveTurns) :
    (orderedTurnKeys host active).Perm active.turns.keys :=
  (perm_insertionSort _ _).map Prod.fst

theorem mirrorsKeys_ordered {state : LiveMeetingState}
    (ordered : state.turnOrder = orderedTurnKeys host state.activeTurns) : MirrorsKeys state where
  nodup := by
    rw [ordered, (orderedTurnKeys_perm host _).nodup_iff]
    exact state.activeTurns.turns.nodup
  mem_iff key := by
    rw [ordered, (orderedTurnKeys_perm host _).mem_iff, JsMap.keys, Option.isSome_iff_exists]
    simp [ActiveTurns.get?, ← JsMap.mem_entries_iff]
  keyed := state.activeTurns.keyed

/-- Told apart, the computed order is sorted. -/
theorem turnsSorted_ordered (collates : host.Collates) {state : LiveMeetingState}
    (ordered : state.turnOrder = orderedTurnKeys host state.activeTurns)
    (apart : SessionsApart host state.activeTurns) : TurnsSorted host state := by
  have total : Std.Total fun left right : String × TranscriptTurn =>
      OrderedBefore host left.2 right.2 := ⟨fun _ _ => orderedBefore_total collates _ _⟩
  have trans : IsTrans (String × TranscriptTurn) fun left right =>
      OrderedBefore host left.2 right.2 := ⟨fun _ _ _ => orderedBefore_trans collates _ _ _⟩
  have compares := map_insertionSort (s := fun left right : String × TranscriptTurn =>
      OrderedBefore host left.2 right.2) (r := fun left right : String × TranscriptTurn =>
      compareOrderedTurns host left.2 right.2 ≤ 0) id state.activeTurns.turns.entries
    fun left isLeft right isRight => compareOrderedTurns_nonpos_iff collates
      (apart _ _ _ (JsMap.mem_entries_iff.mp isLeft) _ (JsMap.mem_entries_iff.mp isRight))
  rw [map_id, map_id] at compares
  rw [TurnsSorted, ordered, orderedTurnKeys, compares, pairwise_map]
  apply (pairwise_insertionSort _ _).imp_of_mem
  intro left right isLeft isRight before first isFirst second isSecond
  have storedLeft := JsMap.mem_entries_iff.mp ((mem_insertionSort _).mp isLeft)
  have storedRight := JsMap.mem_entries_iff.mp ((mem_insertionSort _).mp isRight)
  rw [Option.some.inj (isFirst.symm.trans storedLeft),
    Option.some.inj (isSecond.symm.trans storedRight)]
  exact before

/-- The order mirrors the turns, and is sorted where the sessions are told apart. -/
def Mirrors (host : Host) (state : LiveMeetingState) : Prop :=
  MirrorsKeys state ∧ (SessionsApart host state.activeTurns → TurnsSorted host state)

theorem mirrors_ordered (collates : host.Collates) {state : LiveMeetingState}
    (ordered : state.turnOrder = orderedTurnKeys host state.activeTurns) : Mirrors host state :=
  ⟨mirrorsKeys_ordered ordered, turnsSorted_ordered collates ordered⟩

/-- Turns that are continued in their order keep mirroring it. -/
theorem Mirrors.of_related {state next : LiveMeetingState} (mirrors : Mirrors host state)
    (order : next.turnOrder = state.turnOrder)
    (related : Related Continues state.activeTurns next.activeTurns) : Mirrors host next := by
  obtain ⟨keys, sorted⟩ := mirrors
  constructor
  · constructor
    · rw [order]
      exact keys.nodup
    · intro key
      rw [order, keys.mem_iff, related.some_iff]
    · exact next.activeTurns.keyed
  · intro apart
    have apartBefore : SessionsApart host state.activeTurns := by
      intro first second left isLeft right isRight tie
      obtain ⟨newLeft, foundLeft, fromLeft⟩ := related.exists_after isLeft
      obtain ⟨newRight, foundRight, fromRight⟩ := related.exists_after isRight
      rw [← fromLeft.providerSessionId, ← fromRight.providerSessionId] at tie ⊢
      exact apart first second newLeft foundLeft newRight foundRight tie
    rw [TurnsSorted, order]
    apply (sorted apartBefore).imp
    intro first second before left isLeft right isRight
    obtain ⟨oldLeft, foundLeft, toLeft⟩ := related.exists_before isLeft
    obtain ⟨oldRight, foundRight, toRight⟩ := related.exists_before isRight
    have ordered := before oldLeft foundLeft oldRight foundRight
    rw [OrderedBefore] at ordered ⊢
    rw [toLeft.startMs, toLeft.providerSessionId, toLeft.providerTurnOrder, toRight.startMs,
      toRight.providerSessionId, toRight.providerTurnOrder]
    exact ordered

theorem mirrors_initial (collates : host.Collates) : Mirrors host initialMeetingState :=
  mirrors_ordered collates rfl

/-- Every action keeps the order and the turns in step. -/
theorem Mirrors.meetingReducer (collates : host.Collates) {session : MeetingSession}
    (mirrors : Mirrors host session.toLiveMeetingState) (action : MeetingSession.Action) :
    Mirrors host (session.meetingReducer host action).toLiveMeetingState := by
  by_cases rebuilds : action.Rebuilds
  · cases action with
    | meetingStartRequested => exact mirrors_initial collates
    | cleared => exact mirrors_initial collates
    | artifactLoaded artifact turns =>
      unfold MeetingSession.meetingReducer
      dsimp only
      split
      · exact mirrors
      · exact mirrors_ordered collates rfl
    | transcript action =>
      cases action with
      | speakerRevision => exact absurd rebuilds id
      | providerTurn event context =>
        change Mirrors host (if acceptsProviderTurns session.toLiveMeetingState then
          applyProviderTurn host session.toLiveMeetingState event context
          else session.toLiveMeetingState)
        split
        · unfold applyProviderTurn
          dsimp only
          split
          · exact mirrors
          · exact mirrors_ordered collates rfl
        · exact mirrors
    | _ => exact absurd rebuilds id
  · obtain ⟨order, related⟩ := MeetingSession.related_of_not_rebuilds host session rebuilds
    exact mirrors.of_related order related

/-- In every state that actions lead to from the initial one, the order lists exactly the
keys of the turns, each once and each made from its turn, and is sorted if the comparison
tells the provider sessions of the turns apart. -/
theorem turnOrder_mirrors (collates : host.Collates) (actions : List MeetingSession.Action) :
    MirrorsKeys (actions.foldl (MeetingSession.meetingReducer host)
        MeetingSession.initialMeetingState).toLiveMeetingState ∧
      (SessionsApart host (actions.foldl (MeetingSession.meetingReducer host)
          MeetingSession.initialMeetingState).activeTurns →
        TurnsSorted host (actions.foldl (MeetingSession.meetingReducer host)
          MeetingSession.initialMeetingState).toLiveMeetingState) := by
  have kept : ∀ session : MeetingSession, Mirrors host session.toLiveMeetingState →
      Mirrors host
        (actions.foldl (MeetingSession.meetingReducer host) session).toLiveMeetingState := by
    induction actions with
    | nil => exact fun _ mirrors => mirrors
    | cons action rest ih =>
      intro session mirrors
      exact ih _ (mirrors.meetingReducer collates action)
  exact kept _ (mirrors_initial collates)

/-- Two turns at the same time, the first one later in its provider session. -/
def twoSessions (first second : String) : List MeetingSession.Action :=
  [(first, 2), (second, 1)].map fun turn =>
    .transcript (.providerTurn
      { providerSessionId := turn.1, turnId := "0", turnOrder := turn.2, revision := 0
        transcript := "", speakerLabel := none, words := [], startMs := 0, endMs := 1000
        utteranceBoundary := true, endOfTurn := true, turnIsFormatted := true
        durableFinal := true, receivedAtMs := 1000 }
      { speakerId := none, turnId := none, sourceKind := none, provider := none })

theorem sessionsApart_recordedHost (active : ActiveTurns) : SessionsApart recordedHost active := by
  intro first second left _ right _ same
  unfold recordedHost at same
  dsimp only at same
  split_ifs at same with equal
  · exact equal
  · exact absurd same one_ne_zero

/-- The second turn comes first. -/
theorem turnOrder_mirrors_twoSessions :
    let state := ((twoSessions "session-2" "session-1").foldl
      (MeetingSession.meetingReducer recordedHost)
        MeetingSession.initialMeetingState).toLiveMeetingState
    state.turnOrder = ["session-1:0", "session-2:0"] ∧
      MirrorsKeys state ∧ TurnsSorted recordedHost state := by
  constructor
  · decide +kernel
  · have mirrors := turnOrder_mirrors recordedHost_collates (twoSessions "session-2" "session-1")
    exact ⟨mirrors.1, mirrors.2 (sessionsApart_recordedHost _)⟩

def equivalentSessions : List MeetingSession.Action :=
  twoSessions "é" "e\u0301"

/-- Sessions that compare as equal leave their turns in the order in which they came. -/
theorem not_turnsSorted_equivalentSessions :
    ¬∀ (host : Host) (actions : List MeetingSession.Action), host.Collates →
      MirrorsKeys (actions.foldl (MeetingSession.meetingReducer host)
          MeetingSession.initialMeetingState).toLiveMeetingState ∧
        TurnsSorted host (actions.foldl (MeetingSession.meetingReducer host)
          MeetingSession.initialMeetingState).toLiveMeetingState := by
  intro mirrors
  exact absurd (mirrors canonicalHost equivalentSessions canonicalHost_collates).2
    (by decide +kernel)

end Order

end Obelus.Live
