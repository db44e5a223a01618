import Mathlib.Data.List.Sort
import Obelus.Meetings.Transcript

/-!
# The claim gate

The gate queues the newest final revision of each live segment, hands queued
revisions out in batches, and records the revision up to which a segment is
processed.  A batch keeps a snapshot of its turns, so that a request to begin
it again is told from a different request under the same identifier.
-/

namespace Obelus.Meetings

open Obelus.Data
open Validation

namespace ClaimGateTables

def batch (tables : ClaimGateTables) (batchId : String) : Option ClaimGateBatchRow :=
  lookup ClaimGateBatchRow.id tables.batches batchId

/-- The rows of a batch, `ORDER BY ordinal`. -/
def batchItems (tables : ClaimGateTables) (batchId : String) : List ClaimGateBatchSegmentRow :=
  (tables.batchSegments.filter fun row => row.batchId = batchId).insertionSort
    fun first second => first.ordinal ≤ second.ordinal

def isUnprocessed (tables : ClaimGateTables) (batchId : String) : Bool :=
  (tables.batch batchId).any fun batch => batch.processedAtMs.isNone

/-- A revision of a segment is in a batch that is not processed. -/
def isLocked (tables : ClaimGateTables) (segmentId : String) (revision : Int) : Bool :=
  tables.batchSegments.any fun row => row.segmentId = segmentId &&
    row.segmentRevisionNumber = revision && tables.isUnprocessed row.batchId

end ClaimGateTables

/-- `claim_gate_turn_from_row`. -/
def ClaimGateBatchSegmentRow.turn (row : ClaimGateBatchSegmentRow) : MeetingClaimGateTurnDto where
  id := row.segmentId
  speakerId := row.snapshotSpeakerId
  startMs := row.snapshotStartMs
  endMs := row.snapshotEndMs
  text := row.snapshotText
  revisionNumber := maxZeroAsU64 row.segmentRevisionNumber
  sourceKind := row.snapshotSourceKind

def ClaimGateBatchSegmentRow.ofTurn (batchId : String) (ordinal : Nat)
    (turn : MeetingClaimGateTurnDto) : ClaimGateBatchSegmentRow where
  batchId
  ordinal
  segmentId := turn.id
  segmentRevisionNumber := asI64 turn.revisionNumber
  snapshotSpeakerId := turn.speakerId
  snapshotStartMs := turn.startMs
  snapshotEndMs := turn.endMs
  snapshotText := turn.text
  snapshotSourceKind := turn.sourceKind

/-- The turn a segment stands for now. -/
def TranscriptSegmentRow.currentTurn (row : TranscriptSegmentRow) : MeetingClaimGateTurnDto where
  id := row.id
  speakerId := row.speakerId
  startMs := row.startMs
  endMs := row.endMs
  text := row.finalizedText
  revisionNumber := maxZeroAsU64 row.revisionNumber
  sourceKind := row.sourceKind

/-- The join of a queued segment with its live, final or revised row. -/
def TranscriptTables.gateSegment (transcript : TranscriptTables) (queued : ClaimGateSegmentRow) :
    Option TranscriptSegmentRow :=
  (transcript.segment queued.segmentId).filter fun segment =>
    segment.meetingId = queued.meetingId && transcript.isLive segment &&
      (segment.state = .final || segment.state = .revised)

/-- The checks of a turn before its batch begins. -/
def checkBatchTurn (meetingId : String) (transcript : TranscriptTables)
    (tables : ClaimGateTables) (turn : MeetingClaimGateTurnDto) : Checked :=
  match lookup ClaimGateSegmentRow.key tables.segments (meetingId, turn.id) with
  | none => .error .notFound
  | some queued =>
    match transcript.gateSegment queued with
    | none => .error .notFound
    | some segment => do
      let submittedRevision := asI64 turn.revisionNumber
      ensure (submittedRevision ≤ queued.queuedRevisionNumber ∧
        ∀ processed ∈ queued.processedRevisionNumber, processed < submittedRevision) .conflict
      ensure (submittedRevision = segment.revisionNumber → segment.currentTurn = turn)
        .conflict
      ensure (tables.isLocked turn.id submittedRevision = false) .conflict

def beginClaimGateBatch (meetingId : String) (transcript : TranscriptTables) (now : Int)
    (tables : ClaimGateTables) (batch : MeetingClaimGateBatchBeginDto) :
    Change ClaimGateTables :=
  match tables.batch batch.id with
  | some stored => do
    ensure (stored.meetingId = meetingId ∧ stored.idempotencyKey = batch.idempotencyKey)
      .conflict
    ensure ((tables.batchItems batch.id).map ClaimGateBatchSegmentRow.turn = batch.turns)
      .conflict
    return tables
  | none => do
    forEach (checkBatchTurn meetingId transcript tables) batch.turns
    ensure (∀ stored ∈ tables.batches, ¬(stored.meetingId = meetingId ∧
      stored.idempotencyKey = batch.idempotencyKey)) .conflict
    ensure (batch.turns.map MeetingClaimGateTurnDto.id).Nodup .conflict
    return { tables with
      batches := tables.batches ++
        [{ id := batch.id
           meetingId
           idempotencyKey := batch.idempotencyKey
           processedAtMs := none
           createdAtMs := now }]
      batchSegments := tables.batchSegments ++
        batch.turns.mapIdx (ClaimGateBatchSegmentRow.ofTurn batch.id) }

/-- `processed_revision_number` after a revision was processed. -/
def ClaimGateSegmentRow.process (revision now : Int) (row : ClaimGateSegmentRow) :
    ClaimGateSegmentRow :=
  { row with
    processedRevisionNumber := match row.processedRevisionNumber with
      | none => some revision
      | some processed => if processed < revision then some revision else some processed
    processedAtMs := some now }

/-- The body of the loop over the rows of a completed batch. -/
def processSegment (meetingId : String) (now : Int) (segments : List ClaimGateSegmentRow)
    (item : ClaimGateBatchSegmentRow) : Change (List ClaimGateSegmentRow) := do
  ensure (∃ row ∈ segments, row.key = (meetingId, item.segmentId)) .notFound
  return updateWhere (fun row => row.key = (meetingId, item.segmentId))
    (ClaimGateSegmentRow.process item.segmentRevisionNumber now) segments

def completeClaimGateBatch (meetingId : String) (now : Int) (tables : ClaimGateTables)
    (batchId : String) : Change ClaimGateTables :=
  match tables.batch batchId with
  | none => .error .notFound
  | some batch => do
    ensure (batch.meetingId = meetingId) .conflict
    match batch.processedAtMs with
    | some _ => return tables
    | none =>
      let items := tables.batchItems batchId
      ensure (items ≠ []) .conflict
      let segments ← items.foldlM (processSegment meetingId now) tables.segments
      return { tables with
        segments
        batches := updateWhere
          (fun stored => stored.id = batchId ∧ stored.processedAtMs = none)
          (fun stored => { stored with processedAtMs := some now }) tables.batches }

/-- `ORDER BY ts.start_ms, ts.provider_turn_order, ts.id`. -/
def TranscriptSegmentRow.precedes (first second : TranscriptSegmentRow) : Bool :=
  first.startMs < second.startMs || first.startMs = second.startMs &&
    (first.providerTurnOrder < second.providerTurnOrder ||
      first.providerTurnOrder = second.providerTurnOrder && first.id ≤ second.id)

/-- Some queued revision of a segment is neither processed nor in a batch. -/
def ClaimGateTables.isPending (tables : ClaimGateTables) (queued : ClaimGateSegmentRow) : Bool :=
  (match queued.processedRevisionNumber with
    | none => true
    | some processed => processed < queued.queuedRevisionNumber) &&
    !tables.isLocked queued.segmentId queued.queuedRevisionNumber

def listPendingClaimGateSegmentIds (db : MeetingsDb) (meetingId : String) : List String :=
  let rows := db.claimGate.segments.filter fun queued =>
    queued.meetingId = meetingId && db.claimGate.isPending queued
  ((rows.filterMap db.transcript.gateSegment).insertionSort
    fun first second => first.precedes second).map TranscriptSegmentRow.id

structure MeetingClaimGateBatchDto where
  id : String
  meetingId : String
  idempotencyKey : String
  segmentIds : List String
  turns : List MeetingClaimGateTurnDto
  createdAtMs : Int

/-- `ORDER BY created_at_ms, id`. -/
def ClaimGateBatchRow.precedes (first second : ClaimGateBatchRow) : Bool :=
  first.createdAtMs < second.createdAtMs ||
    first.createdAtMs = second.createdAtMs && first.id ≤ second.id

def listPendingClaimGateBatches (db : MeetingsDb) (meetingId : String) :
    List MeetingClaimGateBatchDto :=
  ((db.claimGate.batches.filter fun batch =>
    batch.meetingId = meetingId && batch.processedAtMs.isNone).insertionSort
      fun first second => first.precedes second).map fun batch =>
    let turns := (db.claimGate.batchItems batch.id).map ClaimGateBatchSegmentRow.turn
    { id := batch.id
      meetingId := batch.meetingId
      idempotencyKey := batch.idempotencyKey
      segmentIds := turns.map MeetingClaimGateTurnDto.id
      turns
      createdAtMs := batch.createdAtMs }

end Obelus.Meetings
