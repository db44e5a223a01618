import Obelus.Live.TurnWrites.Core
import Obelus.Live.TurnWrites.Lane

/-!
# Turn writes run in order

Every segment of the write queue moves the lane of one turn and leaves the
other lanes alone.  Hence the revisions a turn is written with never decrease
and the last one written is the largest requested, in every run that gives up
no revision in front of an older one.

The drain itself does not look at the revision it gave up: a revision that was
queued behind a failing newer write is written after it.
-/

namespace Obelus.Live.TurnWrites

open Obelus.Data
open Obelus.Transition
open Relation

/-! ## The lane of a turn -/

def stagePhase : DrainStage → Phase
  | .attempting queued _ => .writing queued.revision
  | .waiting queued _ => .writing queued.revision
  | .rejected queued => .writing queued.revision
  | .resolved queued => .resolved queued.revision
  | .settling => .settling

def phaseAt (writes : TurnWrites) (turnId : String) : Phase :=
  ((lookup Drain.turnId writes.drains turnId).map fun drain => stagePhase drain.stage).getD .idle

/-- The queued revision of a turn, `-1` where none is queued. -/
def queuedAt (writes : TurnWrites) (turnId : String) : Int :=
  ((writes.queuedTurnWrites.get? turnId).map fun queued => Int.ofNat queued.revision).getD (-1)

def requestedRevision? (turnId : String) : TurnWriteObservation → Option Nat
  | .requested requestedId revision => if requestedId = turnId then some revision else none
  | _ => none

def executedRevision? (turnId : String) : TurnWriteObservation → Option Nat
  | .execute executedId queued => if executedId = turnId then some queued.revision else none
  | _ => none

def writtenRevision? (turnId : String) : TurnWriteObservation → Option Nat
  | .written writtenId queued => if writtenId = turnId then some queued.revision else none
  | _ => none

/-- The lane of a turn in a queue after the observations of `trace`. -/
def laneOf (turnId : String) (writes : TurnWrites) (trace : List TurnWriteObservation) : Lane where
  persisted := revisionAt writes.persistedTurns turnId
  terminal := revisionAt writes.terminalTurnWriteRevisions turnId
  queued := queuedAt writes turnId
  phase := phaseAt writes turnId
  requested := trace.filterMap (requestedRevision? turnId)
  executed := trace.filterMap (executedRevision? turnId)
  written := trace.filterMap (writtenRevision? turnId)

variable (revisions : JsMap String Nat)

theorem revisionAt_set (turnId other : String) (revision : Nat) :
    revisionAt (revisions.set turnId revision) other =
      if other = turnId then (revision : Int) else revisionAt revisions other := by
  unfold revisionAt
  rw [JsMap.get?_set]
  split <;> rfl

theorem revisionAt_delete (turnId other : String) : revisionAt (revisions.delete turnId) other =
      if other = turnId then -1 else revisionAt revisions other := by
  unfold revisionAt
  rw [JsMap.get?_delete]
  split <;> rfl

theorem neg_one_le_revisionAt (turnId : String) : -1 ≤ revisionAt revisions turnId := by
  unfold revisionAt
  cases revisions.get? turnId with
  | none => exact le_refl _
  | some revision =>
    simp only [Option.map_some, Option.getD_some, Int.ofNat_eq_natCast]
    omega

variable {writes : TurnWrites} {place : Nat} {turnId : String} {stage : DrainStage} {host : Host}
  {config : Config TurnWrites TurnWriteObservation}

/-- The drain of a turn after it was moved to another stage. -/
theorem lookup_drains_set (kept : WellKept writes)
    (here : writes.drains[place]? = some ⟨turnId, stage⟩) (stage' : DrainStage) (other : String) :
    lookup Drain.turnId (writes.drains.set place ⟨turnId, stage'⟩) other =
      if other = turnId then some ⟨turnId, stage'⟩
      else lookup Drain.turnId writes.drains other := by
  have same : (Drain.mk turnId stage').turnId = (Drain.mk turnId stage).turnId := rfl
  exact lookup_set kept.nodup here same other

/-- A segment that only moves the drain of a turn to another stage. -/
theorem laneOf_moveDrain (kept : WellKept writes) {stage' : DrainStage}
    (here : writes.drains[place]? = some ⟨turnId, stage⟩) (other : String)
    (trace : List TurnWriteObservation) :
    laneOf other (writes.moveDrain place turnId stage') trace =
      { laneOf other writes trace with
        phase := if other = turnId then stagePhase stage' else phaseAt writes other } := by
  have found := lookup_drains_set kept here stage' other
  simp only [laneOf, moveDrain, phaseAt, found]
  split <;> rfl

theorem phaseAt_of_getElem? (kept : WellKept writes)
    (here : writes.drains[place]? = some ⟨turnId, stage⟩) :
    phaseAt writes turnId = stagePhase stage := by
  have found := lookup_of_getElem? kept.nodup here
  simp [phaseAt, found]

/-! ## Segments move one lane -/

section Segments

variable (writes : TurnWrites) (turnId : String) (trace : List TurnWriteObservation)

theorem nextWrite_lane_of_ne {other : String} (differ : other ≠ turnId) :
    laneOf other (writes.nextWrite turnId).1 (trace ++ (writes.nextWrite turnId).2.2) =
      laneOf other writes trace := by
  have notSame : ¬turnId = other := Ne.symm differ
  rcases nextWrite_cases writes turnId with ⟨-, equal⟩ | ⟨queued, -, ⟨-, equal⟩ | ⟨-, equal⟩⟩
  all_goals
    rw [equal]
    simp [laneOf, queuedAt, phaseAt, JsMap.get?_delete_of_ne _ differ, requestedRevision?,
      executedRevision?, writtenRevision?, notSame]

/-- What the loop of a drain does to its lane, the phase aside. -/
theorem nextWrite_lane_self : (queuedAt writes turnId ≤ revisionAt writes.persistedTurns turnId ∧
      { laneOf turnId (writes.nextWrite turnId).1 (trace ++ (writes.nextWrite turnId).2.2) with
        phase := stagePhase (writes.nextWrite turnId).2.1 } =
        { laneOf turnId writes trace with queued := -1, phase := .settling }) ∨
    ∃ revision : Nat, queuedAt writes turnId = revision ∧
      revisionAt writes.persistedTurns turnId < revision ∧
      { laneOf turnId (writes.nextWrite turnId).1 (trace ++ (writes.nextWrite turnId).2.2) with
        phase := stagePhase (writes.nextWrite turnId).2.1 } =
        { laneOf turnId writes trace with
          queued := -1
          phase := .writing revision
          executed := (laneOf turnId writes trace).executed ++ [revision] } := by
  rcases nextWrite_cases writes turnId with
    ⟨empty, equal⟩ | ⟨queued, slot, ⟨persisted, equal⟩ | ⟨fresh, equal⟩⟩
  · refine Or.inl ⟨?_, ?_⟩
    · have bound := neg_one_le_revisionAt writes.persistedTurns turnId
      simpa [queuedAt, empty] using bound
    · rw [equal]
      simp [laneOf, queuedAt, empty, stagePhase]
  · refine Or.inl ⟨?_, ?_⟩
    · simpa [queuedAt, slot] using persisted
    · rw [equal]
      simp [laneOf, queuedAt, stagePhase]
  · refine Or.inr ⟨queued.revision, ?_, fresh, ?_⟩
    · simp [queuedAt, slot]
    · rw [equal]
      simp [laneOf, queuedAt, stagePhase, requestedRevision?, executedRevision?, writtenRevision?]

theorem startTurnWriteDrain_moves
    (inactive : turnId ∉ writes.activeTurnWriteIds)
    (undrained : turnId ∉ writes.drains.map Drain.turnId) (other : String) :
    LaneMoves (laneOf other writes trace)
      (laneOf other (writes.startTurnWriteDrain turnId).1
        (trace ++ (writes.startTurnWriteDrain turnId).2)) := by
  have found : lookup Drain.turnId
      (writes.drains ++ [⟨turnId, (writes.nextWrite turnId).2.1⟩]) other = _ :=
    lookup_snoc undrained other
  have started : laneOf other (writes.startTurnWriteDrain turnId).1
        (trace ++ (writes.startTurnWriteDrain turnId).2) =
      { laneOf other (writes.nextWrite turnId).1 (trace ++ (writes.nextWrite turnId).2.2) with
        phase := if other = turnId then stagePhase (writes.nextWrite turnId).2.1
          else phaseAt writes other } := by
    rw [startTurnWriteDrain_inactive inactive]
    simp only [laneOf, phaseAt, found]
    split <;> rfl
  rw [started]
  by_cases same : other = turnId
  · subst same
    have idle : (laneOf other writes trace).phase.Resting := by
      simp [laneOf, phaseAt, lookup_eq_none_iff.mpr undrained, Phase.Resting]
    rw [if_pos rfl]
    rcases nextWrite_lane_self writes other trace with
      ⟨persisted, equal⟩ | ⟨revision, queuedEq, fresh, equal⟩
    · rw [equal]
      exact ReflTransGen.single (LaneMove.drop idle persisted)
    · rw [equal]
      exact ReflTransGen.single (LaneMove.begin idle queuedEq fresh)
  · rw [if_neg same, nextWrite_lane_of_ne writes turnId trace same]
    exact ReflTransGen.refl

variable {writes turnId} {place : Nat} {queued : QueuedTranscriptWrite}

theorem writeResolved_moves (kept : WellKept writes)
    (here : writes.drains[place]? = some ⟨turnId, .resolved queued⟩) (other : String) :
    LaneMoves (laneOf other writes trace)
      (laneOf other (writes.writeResolved place turnId queued).1
        (trace ++ (writes.writeResolved place turnId queued).2)) := by
  let persisted : TurnWrites :=
    { writes with
      persistedTurns := writes.persistedTurns.set turnId queued.revision
      terminalTurnWriteRevisions := writes.terminalTurnWriteRevisions.delete turnId }
  obtain ⟨drainsEq, -, -, -, -⟩ := nextWrite_frame persisted turnId
  have found := lookup_drains_set kept here (persisted.nextWrite turnId).2.1 other
  have resolved : laneOf other (writes.writeResolved place turnId queued).1
        (trace ++ (writes.writeResolved place turnId queued).2) =
      { laneOf other (persisted.nextWrite turnId).1
          (trace ++ (persisted.nextWrite turnId).2.2) with
        phase := if other = turnId then stagePhase (persisted.nextWrite turnId).2.1
          else phaseAt writes other } := by
    have dropped : ∀ {project : TurnWriteObservation → Option Nat} {observations},
        project (.addFinalTurn queued.turn) = none →
        (trace ++ .addFinalTurn queued.turn :: observations).filterMap project =
          (trace ++ observations).filterMap project := by
      intro project observations absent
      simp [List.filterMap_append, absent]
    simp only [laneOf, writeResolved, moveDrain, phaseAt]
    rw [dropped rfl, dropped rfl, dropped rfl, drainsEq, found]
    split <;> rfl
  rw [resolved]
  by_cases same : other = turnId
  · subst same
    have phaseEq : (laneOf other writes trace).phase = .resolved queued.revision :=
      phaseAt_of_getElem? kept here
    have persistedEq : laneOf other persisted trace =
        { laneOf other writes trace with persisted := queued.revision, terminal := -1 } := by
      simp [laneOf, persisted, revisionAt_set, revisionAt_delete, queuedAt, phaseAt]
    have revisionEq : revisionAt persisted.persistedTurns other = queued.revision := by
      simp [persisted, revisionAt_set]
    rw [if_pos rfl]
    rcases nextWrite_lane_self persisted other trace with
      ⟨older, equal⟩ | ⟨revision, queuedEq, newer, equal⟩
    · rw [equal, persistedEq]
      rw [revisionEq] at older
      exact ReflTransGen.single (LaneMove.persist phaseEq older)
    · rw [equal, persistedEq]
      rw [revisionEq] at newer
      exact ReflTransGen.single (LaneMove.persistBegin phaseEq queuedEq (Int.ofNat_lt.mp newer))
  · rw [if_neg same, nextWrite_lane_of_ne persisted turnId trace same]
    have unchanged : { laneOf other persisted trace with phase := phaseAt writes other } =
        laneOf other writes trace := by
      simp [laneOf, persisted, revisionAt_set, revisionAt_delete, queuedAt, same]
    rw [unchanged]

theorem writeRejected_moves (kept : WellKept writes)
    (here : writes.drains[place]? = some ⟨turnId, .rejected queued⟩)
    (newest : queuedAt writes turnId = -1 ∨ (queued.revision : Int) ≤ queuedAt writes turnId)
    (other : String) : LaneMoves (laneOf other writes trace)
      (laneOf other (writes.writeRejected place turnId queued).1
        (trace ++ (writes.writeRejected place turnId queued).2)) := by
  have found := lookup_drains_set kept here .settling other
  by_cases same : other = turnId
  · subst same
    have phaseEq : (laneOf other writes trace).phase = .writing queued.revision :=
      phaseAt_of_getElem? kept here
    have rejected : laneOf other (writes.writeRejected place other queued).1
          (trace ++ (writes.writeRejected place other queued).2) =
        { laneOf other writes trace with terminal := queued.revision, phase := .settling } := by
      simp [laneOf, writeRejected, moveDrain, phaseAt, queuedAt, found, revisionAt_set,
        stagePhase, requestedRevision?, executedRevision?, writtenRevision?]
    rw [rejected]
    exact ReflTransGen.single (LaneMove.giveUp phaseEq newest)
  · have unchanged : laneOf other (writes.writeRejected place turnId queued).1
          (trace ++ (writes.writeRejected place turnId queued).2) = laneOf other writes trace := by
      simp [laneOf, writeRejected, moveDrain, phaseAt, queuedAt, found, revisionAt_set, same,
        requestedRevision?, executedRevision?, writtenRevision?]
    rw [unchanged]

theorem drainSettled_moves (kept : WellKept writes)
    (here : writes.drains[place]? = some ⟨turnId, .settling⟩) (other : String) :
    LaneMoves (laneOf other writes trace)
      (laneOf other (writes.drainSettled place turnId).1
        (trace ++ (writes.drainSettled place turnId).2)) := by
  let finished : TurnWrites :=
    { writes with
      drains := writes.drains.eraseIdx place
      activeTurnWriteIds := writes.activeTurnWriteIds.delete turnId }
  have found := lookup_eraseIdx kept.nodup here other
  have undrained : turnId ∉ finished.drains.map Drain.turnId := fun member =>
    ((mem_map_key_eraseIdx kept.nodup here).mp member).2 rfl
  have finish : LaneMoves (laneOf other writes trace) (laneOf other finished trace) := by
    by_cases same : other = turnId
    · subst same
      have phaseEq : (laneOf other writes trace).phase = .settling := phaseAt_of_getElem? kept here
      have finishedEq : laneOf other finished trace =
          { laneOf other writes trace with phase := .idle } := by
        simp [laneOf, finished, phaseAt, queuedAt, found]
      rw [finishedEq]
      exact ReflTransGen.single (LaneMove.finish phaseEq)
    · have unchanged : laneOf other finished trace = laneOf other writes trace := by
        simp [laneOf, finished, phaseAt, queuedAt, found, same]
      rw [unchanged]
  unfold drainSettled
  dsimp only
  split
  · refine finish.trans (startTurnWriteDrain_moves finished turnId trace ?_ undrained other)
    simp [finished]
  · rw [List.append_nil]
    exact finish

variable (host : Host) (reading : TurnWritesReading) (artifact : MeetingArtifact)
  (turn : TranscriptTurn) (retryTerminal : Bool)

variable (other : String)

/-- Requests are recorded in the lane of their turn only. -/
theorem laneOf_requested (revision : Nat) :
    laneOf other writes (trace ++ [.requested turnId revision]) =
      { laneOf other writes trace with
        requested := (laneOf other writes trace).requested ++
          if turnId = other then [revision] else [] } := by
  by_cases same : turnId = other <;>
    simp [laneOf, requestedRevision?, executedRevision?, writtenRevision?, same]

theorem laneOf_executed : laneOf other writes (trace ++ [.execute turnId queued]) =
      { laneOf other writes trace with
        executed := (laneOf other writes trace).executed ++
          if turnId = other then [queued.revision] else [] } := by
  by_cases same : turnId = other <;>
    simp [laneOf, requestedRevision?, executedRevision?, writtenRevision?, same]

theorem laneOf_written : laneOf other writes (trace ++ [.written turnId queued]) =
      { laneOf other writes trace with
        written := (laneOf other writes trace).written ++
          if turnId = other then [queued.revision] else [] } := by
  by_cases same : turnId = other <;>
    simp [laneOf, requestedRevision?, executedRevision?, writtenRevision?, same]

theorem laneOf_forgetTerminal : laneOf other (writes.forgetTerminal turnId retryTerminal) trace =
      { laneOf other writes trace with
        terminal := if retryTerminal ∧ other = turnId then -1
          else revisionAt writes.terminalTurnWriteRevisions other } := by
  cases retryTerminal <;>
    simp [laneOf, forgetTerminal, phaseAt, queuedAt, revisionAt_delete]

/-- Filling the queue slot of a turn, before its drain is started. -/
theorem laneOf_enqueued : laneOf other
        { writes.forgetTerminal turn.id retryTerminal with
          queuedTurnWrites := (writes.forgetTerminal turn.id retryTerminal).queuedTurnWrites.set
            turn.id (queuedWrite host reading artifact turn) } trace =
      { laneOf other (writes.forgetTerminal turn.id retryTerminal) trace with
        queued := if other = turn.id then (turn.revision : Int) else queuedAt writes other } := by
  by_cases same : other = turn.id
  · subst same
    simp [laneOf, forgetTerminal, phaseAt, queuedAt]
  · simp [laneOf, forgetTerminal, phaseAt, queuedAt, JsMap.get?_set_of_ne _ same, same]

/-- A request is refused, forgets the revision given up, or takes the slot. -/
theorem queueTranscriptTurnWrite_moves (kept : WellKept writes)
    (mayForget : retryTerminal = true → (laneOf turn.id writes trace).MayForget turn.revision)
    (other : String) : LaneMoves (laneOf other writes trace)
      (laneOf other
        (writes.queueTranscriptTurnWrite host reading artifact turn retryTerminal).1
        (trace ++ .requested turn.id turn.revision ::
          (writes.queueTranscriptTurnWrite host reading artifact turn retryTerminal).2)) := by
  rw [List.append_cons]
  have refused : (turn.revision : Int) ≤ (laneOf turn.id writes trace).persisted ∨
        (turn.revision : Int) ≤ (laneOf turn.id writes trace).terminal ∨
        (turn.revision : Int) ≤ (laneOf turn.id writes trace).queued →
      LaneMoves (laneOf other writes trace)
        (laneOf other writes (trace ++ [.requested turn.id turn.revision])) := by
    intro covered
    rw [laneOf_requested]
    by_cases same : turn.id = other
    · subst same
      rw [if_pos rfl]
      exact ReflTransGen.single (LaneMove.refuse covered)
    · rw [if_neg same, List.append_nil]
  unfold queueTranscriptTurnWrite
  split
  · rename_i persisted
    rw [List.append_nil]
    exact refused (Or.inl persisted)
  rename_i notPersisted
  split
  · rename_i givenUp
    simp only [Bool.and_eq_true, decide_eq_true_eq] at givenUp
    rw [List.append_nil]
    exact refused (Or.inr (Or.inl givenUp.2))
  rename_i notGivenUp
  have fresh : (laneOf turn.id writes trace).persisted < turn.revision := not_le.mp notPersisted
  dsimp only
  split
  · rename_i larger
    have queuedGe : (turn.revision : Int) ≤ (laneOf turn.id writes trace).queued := by
      simp only [forgetTerminal, Option.any_eq_true, decide_eq_true_eq] at larger
      obtain ⟨queued, slot, newer⟩ := larger
      simp only [laneOf, queuedAt, slot, Option.map_some, Option.getD_some, Int.ofNat_eq_natCast]
      omega
    rw [List.append_nil, laneOf_requested, laneOf_forgetTerminal]
    by_cases same : turn.id = other
    · subst same
      cases retryTerminal with
      | false =>
        have move := LaneMove.refuse (Or.inr (Or.inr queuedGe))
        simpa [laneOf] using ReflTransGen.single move
      | true =>
        have move := LaneMove.forget (mayForget rfl) queuedGe
        simpa [laneOf] using ReflTransGen.single move
    · have unchanged := ReflTransGen.refl (r := LaneMove) (a := laneOf other writes trace)
      simpa [same, Ne.symm same, laneOf] using unchanged
  · rename_i notLarger
    have queuedLe : (laneOf turn.id writes trace).queued ≤ turn.revision := by
      simp only [Option.any_eq_true, decide_eq_true_eq, not_exists, not_and] at notLarger
      cases slot : writes.queuedTurnWrites.get? turn.id with
      | none =>
        simp only [laneOf, queuedAt, slot, Option.map_none, Option.getD_none]
        omega
      | some queued =>
        have older := notLarger queued slot
        simp only [laneOf, queuedAt, slot, Option.map_some, Option.getD_some, Int.ofNat_eq_natCast]
        omega
    let filled : TurnWrites :=
      { writes.forgetTerminal turn.id retryTerminal with
        queuedTurnWrites := (writes.forgetTerminal turn.id retryTerminal).queuedTurnWrites.set
          turn.id (queuedWrite host reading artifact turn) }
    have enqueued : LaneMoves (laneOf other writes trace)
        (laneOf other filled (trace ++ [.requested turn.id turn.revision])) := by
      rw [laneOf_requested, laneOf_enqueued, laneOf_forgetTerminal]
      by_cases same : turn.id = other
      · subst same
        cases retryTerminal with
        | false =>
          have notGivenUp' : (laneOf turn.id writes trace).terminal < turn.revision := by
            simpa [laneOf] using notGivenUp
          have move := LaneMove.enqueue fresh notGivenUp' queuedLe
          simpa [laneOf] using ReflTransGen.single move
        | true =>
          have move := LaneMove.enqueueAgain fresh (mayForget rfl) queuedLe
          simpa [laneOf] using ReflTransGen.single move
      · have unchanged := ReflTransGen.refl (r := LaneMove) (a := laneOf other writes trace)
        simpa [same, Ne.symm same, laneOf] using unchanged
    refine enqueued.trans ?_
    by_cases active : turn.id ∈ writes.activeTurnWriteIds
    · have started : filled.startTurnWriteDrain turn.id = (filled, []) :=
        startTurnWriteDrain_active active
      rw [started, List.append_nil]
    · exact startTurnWriteDrain_moves filled turn.id _ active
        ((kept.active turn.id).not.mp active) other

end Segments

/-! ## Runs -/

/-- A drain of the turn has a write in progress. -/
def isWriting (writes : TurnWrites) (turnId : String) : Bool :=
  writes.drains.any fun drain => drain.turnId = turnId && drain.stage ≠ .settling

/-- A retry of a terminal failure asks for at least the revision given up,
unless a newer write is in progress, and a write that is given up has no older
one queued behind it. -/
def keepsNewest (writes : TurnWrites) : TurnWriteAction → Bool
  | .queueTranscriptTurnWrite _ _ turn true =>
    revisionAt writes.terminalTurnWriteRevisions turn.id ≤ turn.revision ||
      writes.isWriting turn.id
  | .continued place =>
    match writes.drains[place]? with
    | some ⟨turnId, .rejected queued⟩ =>
      (writes.queuedTurnWrites.get? turnId).all fun waiting =>
        queued.revision ≤ waiting.revision
    | _ => true
  | _ => true

def keepingNewest : Guard TurnWrites TurnWriteAction TurnWriteObservation :=
  fun config action _ => keepsNewest config.state action = true

instance : ∀ config action next, Decidable (keepingNewest config action next) :=
  fun _ _ _ => inferInstanceAs (Decidable (_ = true))

/-- All runs of the queue. -/
def anyRun : Guard TurnWrites TurnWriteAction TurnWriteObservation :=
  fun _ _ _ => True

instance : ∀ config action next, Decidable (anyRun config action next) :=
  fun _ _ _ => inferInstanceAs (Decidable True)

theorem not_resting_of_isWriting (kept : WellKept writes)
    (isWriting : writes.isWriting turnId = true) (trace : List TurnWriteObservation) :
    ¬(laneOf turnId writes trace).phase.Resting := by
  simp only [TurnWrites.isWriting, List.any_eq_true, Bool.and_eq_true, decide_eq_true_eq]
    at isWriting
  obtain ⟨⟨_, stage⟩, member, rfl, unsettled⟩ := isWriting
  obtain ⟨place, here⟩ := List.mem_iff_getElem?.mp member
  have phaseEq := phaseAt_of_getElem? kept here
  cases stage <;> simp_all [laneOf, stagePhase, Phase.Resting]

/-- One segment of a run that keeps the newest writes moves every lane by the
moves of lanes. -/
theorem advance_moves {next : Config TurnWrites TurnWriteObservation} {action : TurnWriteAction}
    (kept : WellKept config.state) (advanced : advance (step host) config action = some next)
    (newest : keepsNewest config.state action = true) (other : String) :
    LaneMoves (laneOf other config.state config.trace) (laneOf other next.state next.trace) := by
  obtain ⟨emitted, stepped, traceEq⟩ := advance_eq_some_iff.mp advanced
  rcases config with ⟨writes, trace⟩
  rcases next with ⟨writes', trace'⟩
  subst traceEq
  cases action with
  | queueTranscriptTurnWrite reading artifact turn retryTerminal =>
    have moves := queueTranscriptTurnWrite_moves trace host reading artifact turn retryTerminal
      kept ?_ other
    · cases stepped
      exact moves
    · rintro rfl
      simp only [keepsNewest, Bool.or_eq_true, decide_eq_true_eq] at newest
      exact newest.imp_right fun writing => not_resting_of_isWriting kept writing trace
  | attemptResolved place =>
    simp only [step] at stepped
    split at stepped
    · rename_i turnId queued attempt here
      cases stepped
      rw [laneOf_written, laneOf_moveDrain kept here]
      by_cases same : turnId = other
      · subst same
        have move := @LaneMove.succeed (laneOf turnId writes trace) queued.revision
          (phaseAt_of_getElem? kept here)
        simpa [laneOf, stagePhase] using ReflTransGen.single move
      · have unchanged := ReflTransGen.refl (r := LaneMove) (a := laneOf other writes trace)
        simpa [laneOf, same, Ne.symm same] using unchanged
    · contradiction
  | attemptRejected place =>
    simp only [step] at stepped
    split at stepped
    · rename_i turnId queued attempt here
      have phaseEq := phaseAt_of_getElem? kept here
      have unchanged : ∀ stage, stagePhase stage = .writing queued.revision →
          laneOf other (writes.moveDrain place turnId stage) trace =
            laneOf other writes trace := by
        intro stage stageEq
        rw [laneOf_moveDrain kept here]
        by_cases same : other = turnId
        · subst same
          rw [stageEq]
          simp [laneOf, phaseEq, stagePhase]
        · simp [laneOf, same]
      split at stepped
      all_goals
        cases stepped
        rw [List.append_nil, unchanged _ rfl]
    · contradiction
  | retryTimer place =>
    simp only [step] at stepped
    split at stepped
    · rename_i turnId queued attempt here
      cases stepped
      rw [laneOf_executed, laneOf_moveDrain kept here]
      have phaseEq := phaseAt_of_getElem? kept here
      by_cases same : turnId = other
      · subst same
        have move := @LaneMove.again (laneOf turnId writes trace) queued.revision phaseEq
        simpa [laneOf, phaseEq, stagePhase] using ReflTransGen.single move
      · have unchanged := ReflTransGen.refl (r := LaneMove) (a := laneOf other writes trace)
        simpa [laneOf, same, Ne.symm same] using unchanged
    · contradiction
  | continued place =>
    simp only [step] at stepped
    split at stepped
    · rename_i turnId queued here
      have moves := writeResolved_moves trace kept here other
      rwa [Option.some.inj stepped] at moves
    · rename_i turnId queued here
      have bound : queuedAt writes turnId = -1 ∨
          (queued.revision : Int) ≤ queuedAt writes turnId := by
        simp only [keepsNewest, here] at newest
        cases slot : writes.queuedTurnWrites.get? turnId with
        | none => exact Or.inl (by simp [queuedAt, slot])
        | some waiting =>
          exact Or.inr (by simpa [queuedAt, slot] using newest)
      have moves := writeRejected_moves trace kept here bound other
      rwa [Option.some.inj stepped] at moves
    · contradiction
  | settled place =>
    simp only [step] at stepped
    split at stepped
    · rename_i turnId here
      have moves := drainSettled_moves trace kept here other
      rwa [Option.some.inj stepped] at moves
    · contradiction

theorem orderly_new (turnId : String) : (laneOf turnId new []).Orderly := by
  constructor <;> simp [laneOf, new, revisionAt, queuedAt, phaseAt, lookup, Phase.revision,
    Phase.Resting, Lane.lastWritten]

theorem wellKept_of_reaches {ok : Guard TurnWrites TurnWriteAction
    TurnWriteObservation} (reaches : Reaches (step host) ok new config) :
    WellKept config.state := by
  refine reaches.invariant (fun config => WellKept config.state) wellKept_new ?_
  intro config next action _ kept advanced _
  obtain ⟨emitted, stepped, -⟩ := advance_eq_some_iff.mp advanced
  exact step_wellKept kept stepped

theorem orderly_of_reaches (reaches : Reaches (step host) keepingNewest new config)
    (turnId : String) : (laneOf turnId config.state config.trace).Orderly := by
  refine reaches.invariant (fun config => (laneOf turnId config.state config.trace).Orderly)
    (orderly_new turnId) ?_
  intro config next action before orderly advanced newest
  exact Lane.orderly_of_moves
    (advance_moves (wellKept_of_reaches before) advanced newest turnId) orderly

/-- No write of the turn is running, waiting for a retry or queued. -/
def Quiet (writes : TurnWrites) (turnId : String) : Prop :=
  writes.isWriting turnId = false ∧ writes.queuedTurnWrites.get? turnId = none

def requestedRevisions (turnId : String) (trace : List TurnWriteObservation) : List Nat :=
  trace.filterMap (requestedRevision? turnId)

def executedRevisions (turnId : String) (trace : List TurnWriteObservation) : List Nat :=
  trace.filterMap (executedRevision? turnId)

def writtenRevisions (turnId : String) (trace : List TurnWriteObservation) : List Nat :=
  trace.filterMap (writtenRevision? turnId)

/-- The order in which the write queue is meant to persist the revisions of
turns. -/
structure InOrder (host : Host) (config : Config TurnWrites TurnWriteObservation) : Prop where
  /-- A turn has one drain at most. -/
  exclusive : (config.state.drains.map Drain.turnId).Nodup
  /-- The revisions for which a write is run do not decrease. -/
  executed : ∀ turnId, (executedRevisions turnId config.trace).Pairwise (· ≤ ·)
  /-- A larger revision replaces a queued smaller one. -/
  replaced : ∀ reading artifact turn retryTerminal next waiting,
    config.state.queuedTurnWrites.get? turn.id = some waiting →
    waiting.revision < turn.revision →
    advance (step host) config
      (.queueTranscriptTurnWrite reading artifact turn retryTerminal) = some next →
    next.state.queuedTurnWrites.get? turn.id = some (queuedWrite host reading artifact turn)
  /-- A quiet turn that has given nothing up was last written with its largest
  requested revision. -/
  largest : ∀ turnId, config.state.Quiet turnId →
    config.state.terminalTurnWriteRevisions.get? turnId = none →
    ∀ revision ∈ requestedRevisions turnId config.trace,
      ∃ last, (writtenRevisions turnId config.trace).getLast? = some last ∧
        last ∈ requestedRevisions turnId config.trace ∧
        ∀ other ∈ requestedRevisions turnId config.trace, other ≤ last

/-- A queued write whose lane is orderly is replaced by a larger one. -/
theorem queueTranscriptTurnWrite_replaces (host : Host) (reading : TurnWritesReading)
    (artifact : MeetingArtifact) {turn : TranscriptTurn} (retryTerminal : Bool)
    (kept : WellKept writes) {trace : List TurnWriteObservation} {waiting : QueuedTranscriptWrite}
    (orderly : (laneOf turn.id writes trace).Orderly)
    (slot : writes.queuedTurnWrites.get? turn.id = some waiting)
    (larger : waiting.revision < turn.revision) :
    (writes.queueTranscriptTurnWrite host reading artifact turn
        retryTerminal).1.queuedTurnWrites.get? turn.id =
      some (queuedWrite host reading artifact turn) := by
  have queuedEq : queuedAt writes turn.id = waiting.revision := by simp [queuedAt, slot]
  have below := orderly.queued
  simp only [laneOf] at below
  have active : turn.id ∈ writes.activeTurnWriteIds := by
    rw [kept.active]
    by_contra undrained
    rw [kept.drained _ undrained] at slot
    contradiction
  have notPersisted : ¬revisionAt writes.persistedTurns turn.id ≥ turn.revision := by omega
  have notGivenUp :
      ¬revisionAt writes.terminalTurnWriteRevisions turn.id ≥ turn.revision := by omega
  have notLarger : ¬waiting.revision > turn.revision := by omega
  have started : ∀ filled : TurnWrites, filled.activeTurnWriteIds = writes.activeTurnWriteIds →
      filled.startTurnWriteDrain turn.id = (filled, []) := by
    intro filled activeEq
    exact startTurnWriteDrain_active (activeEq ▸ active)
  unfold queueTranscriptTurnWrite
  rw [if_neg notPersisted, if_neg (by simp [notGivenUp])]
  rw [if_neg (by simp [forgetTerminal, slot, notLarger]), started]
  · exact JsMap.get?_set_self _ _ _
  · rfl

theorem resting_of_quiet (quiet : writes.Quiet turnId) (trace : List TurnWriteObservation) :
    (laneOf turnId writes trace).phase.Resting := by
  have unwritten := quiet.1
  simp only [isWriting, List.any_eq_false, Bool.and_eq_true, decide_eq_true_eq, not_and,
    not_not] at unwritten
  cases found : lookup Drain.turnId writes.drains turnId with
  | none => simp [laneOf, phaseAt, found, Phase.Resting]
  | some drain =>
    obtain ⟨member, same⟩ := lookup_eq_some found
    have settling := unwritten drain member same
    simp [laneOf, phaseAt, found, settling, stagePhase, Phase.Resting]

/-- In every run that keeps the newest writes, the queue persists the
revisions of every turn in order and the largest one last. -/
theorem inOrder_of_keepingNewest (host : Host) (config : Config TurnWrites TurnWriteObservation)
    (reaches : Reaches (step host) keepingNewest new config) : InOrder host config where
  exclusive := (wellKept_of_reaches reaches).nodup
  executed turnId := (orderly_of_reaches reaches turnId).sorted
  replaced := by
    intro reading artifact turn retryTerminal next waiting slot larger advanced
    obtain ⟨emitted, stepped, -⟩ := advance_eq_some_iff.mp advanced
    have replaced := queueTranscriptTurnWrite_replaces host reading artifact retryTerminal
      (wellKept_of_reaches reaches) (orderly_of_reaches reaches turn.id) slot larger
    have stateEq : next.state = (config.state.queueTranscriptTurnWrite host reading artifact turn
        retryTerminal).1 := (congrArg Prod.fst (Option.some.inj stepped)).symm
    rw [stateEq]
    exact replaced
  largest := by
    intro turnId quiet notGivenUp revision member
    refine (orderly_of_reaches reaches turnId).last_written (resting_of_quiet quiet _) ?_ ?_ member
    · simp [laneOf, queuedAt, quiet.2]
    · simp [laneOf, revisionAt, notGivenUp]

/-! ## Recorded runs -/

def recordedReading : TurnWritesReading where
  providerSessionSources := JsMap.empty
  providerSessionModels := JsMap.empty
  speakerObservations := []
  now := 0

def recordedArtifact : MeetingArtifact where
  id := "meeting-1"
  startedAtMs := some 0
  liveTranscriptVersionId := some "version-1"
  versions := []

def requestRevision (revision : Nat) : TurnWriteAction :=
  .queueTranscriptTurnWrite recordedReading recordedArtifact { recordedTurn with revision } false

/-- All attempts of the first drain fail. -/
def exhaustRetries : List TurnWriteAction :=
  [.attemptRejected 0, .retryTimer 0, .attemptRejected 0, .retryTimer 0, .attemptRejected 0,
    .retryTimer 0, .attemptRejected 0, .continued 0, .settled 0]

/-- A newer revision arrives while an older one is written after a failed
attempt. -/
def recordedWrites : List TurnWriteAction :=
  [requestRevision 0, .attemptRejected 0, requestRevision 1, .retryTimer 0, .attemptResolved 0,
    .continued 0, .attemptResolved 0, .continued 0, .settled 0]

theorem inOrder_recordedWrites :
    ∃ config, exec (step recordedHost) (Config.initial new) recordedWrites = some config ∧
      InOrder recordedHost config := by
  obtain ⟨config, executed⟩ : ∃ config, exec (step recordedHost) (Config.initial new)
      recordedWrites = some config :=
    Option.isSome_iff_exists.mp (by decide +kernel)
  exact ⟨config, executed, inOrder_of_keepingNewest recordedHost config
    (reaches_of_exec recordedWrites (by decide +kernel) executed)⟩

/-- Revision 1 exhausts its retries while revision 0, requested late, is
queued behind it; revision 0 is written afterwards and clears the failure. -/
def overtakenWrites : List TurnWriteAction :=
  [requestRevision 1, requestRevision 0] ++ exhaustRetries ++
    [.attemptResolved 0, .continued 0, .settled 0]

theorem not_inOrder_of_overtaken :
    ∃ config, Reaches (step recordedHost) anyRun new config ∧ ¬InOrder recordedHost config := by
  obtain ⟨config, reaches, decreases⟩ := exists_reaches_of_exec (step recordedHost) anyRun new
    (fun config => ¬(executedRevisions "turn-1" config.trace).Pairwise (· ≤ ·))
    overtakenWrites (by decide +kernel) (by decide +kernel)
  exact ⟨config, reaches, fun inOrder => decreases (inOrder.executed "turn-1")⟩

end Obelus.Live.TurnWrites
