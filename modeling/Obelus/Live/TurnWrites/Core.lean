import Obelus.Data.JsMap
import Obelus.Live.Types
import Obelus.Transition.Reaches

/-!
# The write queue of transcript turns

Finalized turns are persisted through one queue slot for each turn id.  A drain
takes the queued write of its turn, runs it with up to three retries, and looks
again; `queueTranscriptTurnWrite` fills the slot and starts a drain where none
is active.

Drains are asynchronous functions.  A drain that is suspended is kept in
`drains` with its position; an action continues one of them, by its place in
the list, or calls `queueTranscriptTurnWrite`.
-/

namespace Obelus.Live

open Obelus.Data
open Obelus.Transition

/-- The fields of the upsert that `transcriptVersionUpsert` does not set to a
constant. -/
structure TranscriptVersionUpsert where
  id : String
  revisionNumber : Nat
  provider : String
  model : Option String
  startedAtMs : Number
  deriving DecidableEq

structure SpeakerObservationUpsert where
  id : String
  transcriptVersionId : String
  speakerId : String
  provider : String
  providerNamespace : String
  providerSpeakerLabel : String
  revisionNumber : Nat
  sourceHint : Option SourceKind
  deriving DecidableEq

/-- A queued write: its revision, its turn, and what its operation passes to
`persistTranscriptTurn` beside the turn. -/
structure QueuedTranscriptWrite where
  revision : Nat
  turn : TranscriptTurn
  artifactId : String
  transcriptVersion : TranscriptVersionUpsert
  observations : List SpeakerObservationUpsert
  deriving DecidableEq

def transcriptVersionUpsert (host : Host) (artifact : MeetingArtifact) (provider : String)
    (model : Option String) (now : Number) : TranscriptVersionUpsert :=
  let version := artifact.versions.find? fun candidate =>
    some candidate.id = artifact.liveTranscriptVersionId
  { id := ((version.map (·.id)).orElse fun _ => artifact.liveTranscriptVersionId).getD
      (stableLiveUuid host ("live-transcript-version:" ++ artifact.id))
    revisionNumber := (version.map (·.revision)).getD 0
    provider
    model := model.orElse fun _ => version.bind (·.model)
    startedAtMs := artifact.startedAtMs.getD now }

/-- The delays after the failed attempts of `retryDurableOperation`, in
milliseconds. -/
def retryDelaysMs : List Nat :=
  [200, 500, 1000]

/-- The position of a drain: inside an attempt, waiting for the retry timer
after it, with a resolved or a rejected retry loop, or returned with its
`finally` callback outstanding. -/
inductive DrainStage
  | attempting (queued : QueuedTranscriptWrite) (attempt : Nat)
  | waiting (queued : QueuedTranscriptWrite) (attempt : Nat)
  | resolved (queued : QueuedTranscriptWrite)
  | rejected (queued : QueuedTranscriptWrite)
  | settling
  deriving DecidableEq

structure Drain where
  turnId : String
  stage : DrainStage

/-- The references of the runtime provider that the write queue uses. -/
structure TurnWrites where
  persistedTurns : JsMap String Nat
  queuedTurnWrites : JsMap String QueuedTranscriptWrite
  activeTurnWriteIds : JsSet String
  terminalTurnWriteRevisions : JsMap String Nat
  drains : List Drain

/-- What one segment reads from the other references and the clock. -/
structure TurnWritesReading where
  providerSessionSources : JsMap String SourceKind
  providerSessionModels : JsMap String String
  speakerObservations : List SpeakerObservation
  now : Number

/-- What can be observed of the queue: calls of `queueTranscriptTurnWrite`, runs
of a write operation, their success, and what follows success and failure. -/
inductive TurnWriteObservation
  | requested (turnId : String) (revision : Nat)
  | execute (turnId : String) (queued : QueuedTranscriptWrite)
  | written (turnId : String) (queued : QueuedTranscriptWrite)
  | addFinalTurn (turn : TranscriptTurn)
  | failed (error : LiveError)

def transcriptPersistenceFailed : LiveError where
  code := "transcript_persistence_failed"
  message := "A finalized transcript turn could not be saved locally. Obelus will retry before " ++
    "refinement."
  retryable := true

namespace TurnWrites

def new : TurnWrites where
  persistedTurns := JsMap.empty
  queuedTurnWrites := JsMap.empty
  activeTurnWriteIds := JsSet.empty
  terminalTurnWriteRevisions := JsMap.empty
  drains := []

/-- The revision a map keeps for a turn, `-1` where it keeps none. -/
def revisionAt (revisions : JsMap String Nat) (turnId : String) : Int :=
  ((revisions.get? turnId).map Int.ofNat).getD (-1)

/-- The loop of a drain from its head to the next suspension.  A write that is
already persisted is dropped; the slot is then empty and the next iteration
returns. -/
def nextWrite (writes : TurnWrites) (turnId : String) :
    TurnWrites × DrainStage × List TurnWriteObservation :=
  match writes.queuedTurnWrites.get? turnId with
  | none => (writes, .settling, [])
  | some queued =>
    let writes :=
      { writes with queuedTurnWrites := writes.queuedTurnWrites.delete turnId }
    if revisionAt writes.persistedTurns turnId ≥ queued.revision then (writes, .settling, [])
    else (writes, .attempting queued 0, [.execute turnId queued])

def startTurnWriteDrain (writes : TurnWrites) (turnId : String) :
    TurnWrites × List TurnWriteObservation :=
  if writes.activeTurnWriteIds.has turnId then (writes, [])
  else
    let writes :=
      { writes with activeTurnWriteIds := writes.activeTurnWriteIds.add turnId }
    let (writes, stage, observations) := writes.nextWrite turnId
    ({ writes with drains := writes.drains ++ [⟨turnId, stage⟩] }, observations)

/-- The queue entry for a turn: the turn with the source of its session, and
the arguments of its write. -/
def queuedWrite (host : Host) (reading : TurnWritesReading) (artifact : MeetingArtifact)
    (turn : TranscriptTurn) : QueuedTranscriptWrite :=
  let sourcedTurn := match reading.providerSessionSources.get? turn.providerSessionId with
    | some sourceKind => { turn with sourceKind }
    | none => turn
  let transcriptVersion := transcriptVersionUpsert host artifact sourcedTurn.provider
    (reading.providerSessionModels.get? turn.providerSessionId) reading.now
  let observations := (reading.speakerObservations.filter fun observation =>
    observation.providerSessionId = turn.providerSessionId).map fun observation =>
      { id := stableLiveUuid host ("speaker-observation:" ++ transcriptVersion.id ++ ":" ++
          observation.providerSessionId ++ ":" ++ observation.providerLabel)
        transcriptVersionId := transcriptVersion.id
        speakerId := observation.speakerId
        provider := sourcedTurn.provider
        providerNamespace := observation.providerSessionId
        providerSpeakerLabel := observation.providerLabel
        revisionNumber := turn.revision
        sourceHint := observation.sourceHint }
  { revision := turn.revision
    turn := sourcedTurn
    artifactId := artifact.id
    transcriptVersion
    observations }

@[simp]
theorem queuedWrite_revision (host : Host) (reading : TurnWritesReading)
    (artifact : MeetingArtifact) (turn : TranscriptTurn) :
    (queuedWrite host reading artifact turn).revision = turn.revision :=
  rfl

/-- A retry of a terminal failure forgets the revision that was given up. -/
def forgetTerminal (writes : TurnWrites) (turnId : String) (retryTerminal : Bool) :
    TurnWrites :=
  { writes with
    terminalTurnWriteRevisions :=
      if retryTerminal then writes.terminalTurnWriteRevisions.delete turnId
      else writes.terminalTurnWriteRevisions }

def queueTranscriptTurnWrite (host : Host) (writes : TurnWrites) (reading : TurnWritesReading)
    (artifact : MeetingArtifact) (turn : TranscriptTurn) (retryTerminal : Bool) :
    TurnWrites × List TurnWriteObservation :=
  if revisionAt writes.persistedTurns turn.id ≥ turn.revision then (writes, [])
  else if !retryTerminal &&
      revisionAt writes.terminalTurnWriteRevisions turn.id ≥ turn.revision then
    (writes, [])
  else
    let writes := writes.forgetTerminal turn.id retryTerminal
    if (writes.queuedTurnWrites.get? turn.id).any (·.revision > turn.revision) then (writes, [])
    else
      { writes with
        queuedTurnWrites := writes.queuedTurnWrites.set turn.id
          (queuedWrite host reading artifact turn) }.startTurnWriteDrain turn.id

/-- The drain at a place moves on to another stage. -/
def moveDrain (writes : TurnWrites) (place : Nat) (turnId : String) (stage : DrainStage) :
    TurnWrites :=
  { writes with drains := writes.drains.set place ⟨turnId, stage⟩ }

/-- The drain after its retry loop resolved. -/
def writeResolved (writes : TurnWrites) (place : Nat) (turnId : String)
    (queued : QueuedTranscriptWrite) : TurnWrites × List TurnWriteObservation :=
  let writes :=
    { writes with
      persistedTurns := writes.persistedTurns.set turnId queued.revision
      terminalTurnWriteRevisions := writes.terminalTurnWriteRevisions.delete turnId }
  let (writes, stage, observations) := writes.nextWrite turnId
  (writes.moveDrain place turnId stage, .addFinalTurn queued.turn :: observations)

/-- The drain after its retry loop gave up. -/
def writeRejected (writes : TurnWrites) (place : Nat) (turnId : String)
    (queued : QueuedTranscriptWrite) : TurnWrites × List TurnWriteObservation :=
  ({ writes with
      terminalTurnWriteRevisions :=
        writes.terminalTurnWriteRevisions.set turnId queued.revision }.moveDrain place turnId
      .settling,
    [.failed transcriptPersistenceFailed])

/-- The `finally` callback of a drain. -/
def drainSettled (writes : TurnWrites) (place : Nat) (turnId : String) :
    TurnWrites × List TurnWriteObservation :=
  let writes :=
    { writes with
      drains := writes.drains.eraseIdx place
      activeTurnWriteIds := writes.activeTurnWriteIds.delete turnId }
  if writes.queuedTurnWrites.has turnId then writes.startTurnWriteDrain turnId
  else (writes, [])

inductive TurnWriteAction
  | queueTranscriptTurnWrite (reading : TurnWritesReading) (artifact : MeetingArtifact)
      (turn : TranscriptTurn) (retryTerminal : Bool)
  | attemptResolved (place : Nat)
  | attemptRejected (place : Nat)
  | retryTimer (place : Nat)
  | continued (place : Nat)
  | settled (place : Nat)

def step (host : Host) : Machine TurnWrites TurnWriteAction TurnWriteObservation
  | writes, .queueTranscriptTurnWrite reading artifact turn retryTerminal =>
    let (next, observations) :=
      writes.queueTranscriptTurnWrite host reading artifact turn retryTerminal
    some (next, .requested turn.id turn.revision :: observations)
  | writes, .attemptResolved place =>
    match writes.drains[place]? with
    | some ⟨turnId, .attempting queued _⟩ =>
      some (writes.moveDrain place turnId (.resolved queued), [.written turnId queued])
    | _ => none
  | writes, .attemptRejected place =>
    match writes.drains[place]? with
    | some ⟨turnId, .attempting queued attempt⟩ =>
      if attempt < retryDelaysMs.length then
        some (writes.moveDrain place turnId (.waiting queued attempt), [])
      else some (writes.moveDrain place turnId (.rejected queued), [])
    | _ => none
  | writes, .retryTimer place =>
    match writes.drains[place]? with
    | some ⟨turnId, .waiting queued attempt⟩ =>
      some (writes.moveDrain place turnId (.attempting queued (attempt + 1)),
        [.execute turnId queued])
    | _ => none
  | writes, .continued place =>
    match writes.drains[place]? with
    | some ⟨turnId, .resolved queued⟩ => some (writes.writeResolved place turnId queued)
    | some ⟨turnId, .rejected queued⟩ => some (writes.writeRejected place turnId queued)
    | _ => none
  | writes, .settled place =>
    match writes.drains[place]? with
    | some ⟨turnId, .settling⟩ => some (writes.drainSettled place turnId)
    | _ => none

end TurnWrites

end Obelus.Live

/-!
## Drains of the write queue

The set of active turn ids and the suspended drains always agree: a turn has
one drain at most, and a queued write has a drain that will look for it.
-/

namespace Obelus.Live.TurnWrites

open Obelus.Data List

/-- The loop of a drain stops at an empty slot, at a persisted write, which it
drops, or inside the first attempt of a newer one. -/
theorem nextWrite_cases (writes : TurnWrites) (turnId : String) :
    (writes.queuedTurnWrites.get? turnId = none ∧
      writes.nextWrite turnId = (writes, .settling, [])) ∨
    ∃ queued, writes.queuedTurnWrites.get? turnId = some queued ∧
      (((queued.revision : Int) ≤ revisionAt writes.persistedTurns turnId ∧
        writes.nextWrite turnId =
          ({ writes with queuedTurnWrites := writes.queuedTurnWrites.delete turnId },
            .settling, [])) ∨
      (revisionAt writes.persistedTurns turnId < queued.revision ∧
        writes.nextWrite turnId =
          ({ writes with queuedTurnWrites := writes.queuedTurnWrites.delete turnId },
            .attempting queued 0, [.execute turnId queued]))) := by
  unfold nextWrite
  cases slot : writes.queuedTurnWrites.get? turnId with
  | none => exact Or.inl ⟨rfl, rfl⟩
  | some queued =>
    refine Or.inr ⟨queued, rfl, ?_⟩
    by_cases persisted : revisionAt writes.persistedTurns turnId ≥ queued.revision
    · exact Or.inl ⟨persisted, if_pos persisted⟩
    · exact Or.inr ⟨not_le.mp persisted, if_neg persisted⟩

theorem nextWrite_frame (writes : TurnWrites) (turnId : String) :
    (writes.nextWrite turnId).1.drains = writes.drains ∧
      (writes.nextWrite turnId).1.activeTurnWriteIds = writes.activeTurnWriteIds ∧
      (writes.nextWrite turnId).1.persistedTurns = writes.persistedTurns ∧
      (writes.nextWrite turnId).1.terminalTurnWriteRevisions = writes.terminalTurnWriteRevisions ∧
      ∀ other, (writes.nextWrite turnId).1.queuedTurnWrites.get? other =
        if other = turnId then none else writes.queuedTurnWrites.get? other := by
  rcases nextWrite_cases writes turnId with ⟨empty, equal⟩ | ⟨queued, -, ⟨-, equal⟩ | ⟨-, equal⟩⟩
  · rw [equal]
    refine ⟨rfl, rfl, rfl, rfl, ?_⟩
    intro other
    split
    · rename_i same
      rw [same, empty]
    · rfl
  all_goals
    rw [equal]
    exact ⟨rfl, rfl, rfl, rfl, JsMap.get?_delete _ _⟩

variable {writes : TurnWrites} {turnId : String} {place : Nat} {stage : DrainStage} {host : Host}

theorem startTurnWriteDrain_active (active : turnId ∈ writes.activeTurnWriteIds) :
    writes.startTurnWriteDrain turnId = (writes, []) := by
  simp [startTurnWriteDrain, active]

theorem startTurnWriteDrain_inactive (inactive : turnId ∉ writes.activeTurnWriteIds) :
    writes.startTurnWriteDrain turnId =
      ({ (writes.nextWrite turnId).1 with
          activeTurnWriteIds := writes.activeTurnWriteIds.add turnId
          drains := writes.drains ++ [⟨turnId, (writes.nextWrite turnId).2.1⟩] },
        (writes.nextWrite turnId).2.2) := by
  have absent : writes.activeTurnWriteIds.has turnId = false := by
    simpa [JsSet.has] using inactive
  unfold startTurnWriteDrain
  rw [if_neg (by simp [absent])]
  unfold nextWrite
  dsimp only
  cases writes.queuedTurnWrites.get? turnId with
  | none => rfl
  | some queued =>
    dsimp only
    split <;> rfl

/-- The active turn ids are those of the drains, each has one drain, and a
queued write has a drain that will look for it. -/
structure WellKept (writes : TurnWrites) : Prop where
  nodup : (writes.drains.map Drain.turnId).Nodup
  active : ∀ turnId, turnId ∈ writes.activeTurnWriteIds ↔
    turnId ∈ writes.drains.map Drain.turnId
  drained : ∀ turnId, turnId ∉ writes.drains.map Drain.turnId →
    writes.queuedTurnWrites.get? turnId = none

theorem wellKept_new : WellKept new := by
  constructor <;> simp [new]

/-- Starting a drain restores the bookkeeping of its turn. -/
theorem startTurnWriteDrain_wellKept (nodup : (writes.drains.map Drain.turnId).Nodup)
    (active : ∀ other, other ∈ writes.activeTurnWriteIds ↔ other ∈ writes.drains.map Drain.turnId)
    (drained : ∀ other, other ≠ turnId → other ∉ writes.drains.map Drain.turnId →
      writes.queuedTurnWrites.get? other = none) :
    WellKept (writes.startTurnWriteDrain turnId).1 := by
  by_cases member : turnId ∈ writes.activeTurnWriteIds
  · rw [startTurnWriteDrain_active member]
    refine ⟨nodup, active, ?_⟩
    intro other absent
    refine drained other ?_ absent
    rintro rfl
    exact absent ((active other).mp member)
  · have absent : turnId ∉ writes.drains.map Drain.turnId := (active turnId).not.mp member
    obtain ⟨-, -, -, -, queuedEq⟩ := nextWrite_frame writes turnId
    rw [startTurnWriteDrain_inactive member]
    refine ⟨?_, ?_, ?_⟩
    · simp only [map_append]
      exact nodup_snoc nodup absent
    · intro other
      simp only [JsSet.mem_add, active other, map_append, map_cons, map_nil,
        mem_append, mem_singleton]
      exact or_comm
    · intro other notDrained
      simp only [map_append, map_cons, map_nil, mem_append, mem_singleton, not_or] at notDrained
      rw [queuedEq, if_neg notDrained.2]
      exact drained other notDrained.2 notDrained.1

theorem WellKept.moveDrain (kept : WellKept writes) {stage' : DrainStage}
    (here : writes.drains[place]? = some ⟨turnId, stage⟩) :
    WellKept (writes.moveDrain place turnId stage') := by
  have sameIds : (writes.drains.set place ⟨turnId, stage'⟩).map Drain.turnId =
      writes.drains.map Drain.turnId :=
    map_key_set here rfl
  refine ⟨?_, ?_, ?_⟩
  · rw [TurnWrites.moveDrain, sameIds]
    exact kept.nodup
  · intro other
    rw [TurnWrites.moveDrain, sameIds]
    exact kept.active other
  · intro other
    rw [TurnWrites.moveDrain, sameIds]
    exact kept.drained other

theorem WellKept.writeResolved (kept : WellKept writes) {queued : QueuedTranscriptWrite}
    (here : writes.drains[place]? = some ⟨turnId, stage⟩) :
    WellKept (writes.writeResolved place turnId queued).1 := by
  let persisted : TurnWrites :=
    { writes with
      persistedTurns := writes.persistedTurns.set turnId queued.revision
      terminalTurnWriteRevisions := writes.terminalTurnWriteRevisions.delete turnId }
  obtain ⟨drainsEq, activeEq, -, -, queuedEq⟩ := nextWrite_frame persisted turnId
  have keptNext : WellKept (persisted.nextWrite turnId).1 := by
    refine ⟨?_, ?_, ?_⟩
    · rw [drainsEq]
      exact kept.nodup
    · rw [drainsEq, activeEq]
      exact kept.active
    · intro other absent
      rw [drainsEq] at absent
      rw [queuedEq]
      split
      · rfl
      · exact kept.drained other absent
  exact keptNext.moveDrain (by rw [drainsEq]; exact here)

theorem WellKept.drainSettled (kept : WellKept writes)
    (here : writes.drains[place]? = some ⟨turnId, stage⟩) :
    WellKept (writes.drainSettled place turnId).1 := by
  have nodup : ((writes.drains.eraseIdx place).map Drain.turnId).Nodup :=
    ((eraseIdx_sublist _ _).map _).nodup kept.nodup
  have erased : ∀ other, other ∈ (writes.drains.eraseIdx place).map Drain.turnId ↔
      other ∈ writes.drains.map Drain.turnId ∧ other ≠ turnId :=
    fun other => mem_map_key_eraseIdx kept.nodup here
  have active : ∀ other, other ∈ writes.activeTurnWriteIds.delete turnId ↔
      other ∈ (writes.drains.eraseIdx place).map Drain.turnId := by
    intro other
    rw [JsSet.mem_delete, erased, kept.active]
  have drained : ∀ other, other ≠ turnId →
      other ∉ (writes.drains.eraseIdx place).map Drain.turnId →
      writes.queuedTurnWrites.get? other = none := by
    intro other differ absent
    refine kept.drained other fun member => absent ?_
    exact (erased other).mpr ⟨member, differ⟩
  unfold TurnWrites.drainSettled
  dsimp only
  split
  · exact startTurnWriteDrain_wellKept nodup active drained
  · rename_i empty
    refine ⟨nodup, active, ?_⟩
    intro other absent
    by_cases same : other = turnId
    · rw [same]
      simpa [JsMap.has_eq_isSome] using empty
    · exact drained other same absent

theorem WellKept.queueTranscriptTurnWrite (kept : WellKept writes) {reading : TurnWritesReading}
    {artifact : MeetingArtifact} {turn : TranscriptTurn} {retryTerminal : Bool} :
    WellKept (writes.queueTranscriptTurnWrite host reading artifact turn retryTerminal).1 := by
  unfold TurnWrites.queueTranscriptTurnWrite
  split
  · exact kept
  split
  · exact kept
  dsimp only
  split
  · exact ⟨kept.nodup, kept.active, kept.drained⟩
  · refine startTurnWriteDrain_wellKept kept.nodup kept.active ?_
    intro other differ absent
    exact (JsMap.get?_set_of_ne _ differ _).trans (kept.drained other absent)

theorem step_wellKept {next : TurnWrites} {action : TurnWriteAction}
    {emitted : List TurnWriteObservation} (kept : WellKept writes)
    (stepped : step host writes action = some (next, emitted)) : WellKept next := by
  cases action with
  | queueTranscriptTurnWrite reading artifact turn retryTerminal =>
    cases stepped
    exact kept.queueTranscriptTurnWrite
  | attemptResolved place =>
    simp only [step] at stepped
    split at stepped
    · rename_i here
      cases stepped
      exact kept.moveDrain here
    · contradiction
  | attemptRejected place =>
    simp only [step] at stepped
    split at stepped
    · rename_i here
      split at stepped <;> cases stepped <;> exact kept.moveDrain here
    · contradiction
  | retryTimer place =>
    simp only [step] at stepped
    split at stepped
    · rename_i here
      cases stepped
      exact kept.moveDrain here
    · contradiction
  | continued place =>
    simp only [step] at stepped
    split at stepped
    · rename_i turnId queued here
      have next : WellKept (writes.writeResolved place turnId queued).1 := kept.writeResolved here
      rwa [Option.some.inj stepped] at next
    · rename_i turnId queued here
      have next : WellKept (writes.moveDrain place turnId .settling) := kept.moveDrain here
      cases stepped
      exact ⟨next.nodup, next.active, next.drained⟩
    · contradiction
  | settled place =>
    simp only [step] at stepped
    split at stepped
    · rename_i turnId here
      have next := kept.drainSettled here
      rwa [Option.some.inj stepped] at next
    · contradiction

end Obelus.Live.TurnWrites
