import Obelus.Meetings.ClaimGate
import Obelus.Meetings.TranscriptErrors

/-!
# The claim gate queue

The queue and the batches are consistent when no revision is in two batches,
no segment is processed beyond its queued revision, and a revision in a batch
is queued and, once the batch is processed, processed.  The counters of the
queue and the contents of the batches only grow.
-/

namespace Obelus.Meetings

open Obelus.Data
open ClaimGateBatchSegmentRow (ofTurn)

/-- The row of the queue for a segment of a meeting. -/
def ClaimGateTables.queued (tables : ClaimGateTables) (key : String × String) :
    Option ClaimGateSegmentRow :=
  lookup ClaimGateSegmentRow.key tables.segments key

/-- The revision of a segment that a row of a batch stands for. -/
def ClaimGateBatchSegmentRow.revision (row : ClaimGateBatchSegmentRow) : String × Int :=
  (row.segmentId, row.segmentRevisionNumber)

/-- A revision is processed. -/
def ClaimGateSegmentRow.HasProcessed (row : ClaimGateSegmentRow) (revision : Int) : Prop :=
  ∃ processed ∈ row.processedRevisionNumber, revision ≤ processed

/-- What holds between the queue, the batches and the segments of a store. -/
structure ClaimGateTables.Consistent (transcript : TranscriptTables) (tables : ClaimGateTables) :
    Prop where
  queueKeys : (tables.segments.map ClaimGateSegmentRow.key).Nodup
  batchIds : (tables.batches.map ClaimGateBatchRow.id).Nodup
  revisions : (tables.batchSegments.map ClaimGateBatchSegmentRow.revision).Nodup
  ofMeeting : ∀ key row, tables.queued key = some row →
    ∃ segment, transcript.segment key.2 = some segment ∧ segment.meetingId = key.1
  notBeyondQueued : ∀ key row, tables.queued key = some row →
    ∀ processed ∈ row.processedRevisionNumber, processed ≤ row.queuedRevisionNumber
  batched : ∀ item ∈ tables.batchSegments, ∃ batch row,
    tables.batch item.batchId = some batch ∧
      tables.queued (batch.meetingId, item.segmentId) = some row ∧
      item.segmentRevisionNumber ≤ row.queuedRevisionNumber ∧
      (batch.processedAtMs.isSome → row.HasProcessed item.segmentRevisionNumber)

/-- The counters of a segment never go back. -/
structure ClaimGateSegmentRow.Advances (before after : ClaimGateSegmentRow) : Prop where
  queued : before.queuedRevisionNumber ≤ after.queuedRevisionNumber
  processed : ∀ revision, before.HasProcessed revision → after.HasProcessed revision

/-- The queue advances, and batches keep their identity and their turns. -/
structure ClaimGateTables.Grows (before after : ClaimGateTables) : Prop where
  queued : ∀ key row, before.queued key = some row →
    ∃ advanced, after.queued key = some advanced ∧ row.Advances advanced
  batches : ∀ id batch, before.batch id = some batch →
    ∃ kept, after.batch id = some kept ∧ kept.meetingId = batch.meetingId ∧
      kept.idempotencyKey = batch.idempotencyKey ∧
      (batch.processedAtMs.isSome → kept.processedAtMs.isSome)
  items : ∀ id batch, before.batch id = some batch → after.batchItems id = before.batchItems id

theorem ClaimGateSegmentRow.Advances.refl (row : ClaimGateSegmentRow) : row.Advances row :=
  ⟨le_refl _, fun _ => id⟩

theorem ClaimGateSegmentRow.Advances.trans {first second third : ClaimGateSegmentRow}
    (earlier : first.Advances second) (later : second.Advances third) : first.Advances third :=
  ⟨earlier.queued.trans later.queued,
    fun revision processed => later.processed revision (earlier.processed revision processed)⟩

namespace ClaimGateTables

theorem Grows.refl (tables : ClaimGateTables) : tables.Grows tables where
  queued := fun _ row found => ⟨row, found, .refl row⟩
  batches := fun _ batch found => ⟨batch, found, rfl, rfl, id⟩
  items := fun _ _ _ => rfl

theorem Grows.trans {first second third : ClaimGateTables} (earlier : first.Grows second)
    (later : second.Grows third) : first.Grows third where
  queued := fun key row found => by
    obtain ⟨middle, foundMiddle, advancedMiddle⟩ := earlier.queued key row found
    obtain ⟨final, foundFinal, advancedFinal⟩ := later.queued key middle foundMiddle
    exact ⟨final, foundFinal, advancedMiddle.trans advancedFinal⟩
  batches := fun id batch found => by
    obtain ⟨middle, foundMiddle, sameMeeting, sameKey, processed⟩ := earlier.batches id batch found
    obtain ⟨final, foundFinal, meetingKept, keyKept, processedKept⟩ :=
      later.batches id middle foundMiddle
    exact ⟨final, foundFinal, meetingKept.trans sameMeeting, keyKept.trans sameKey,
      processedKept ∘ processed⟩
  items := fun id batch found => by
    obtain ⟨middle, foundMiddle, -⟩ := earlier.batches id batch found
    exact (later.items id middle foundMiddle).trans (earlier.items id batch found)

end ClaimGateTables

/-! ## Enqueueing -/

variable (excluded stored : ClaimGateSegmentRow)

theorem ClaimGateSegmentRow.key_merge : (merge excluded stored).key = stored.key := by
  unfold merge
  split <;> rfl

theorem ClaimGateSegmentRow.processedRevisionNumber_merge :
    (merge excluded stored).processedRevisionNumber = stored.processedRevisionNumber := by
  unfold merge
  split <;> rfl

theorem ClaimGateSegmentRow.queuedRevisionNumber_merge :
    (merge excluded stored).queuedRevisionNumber =
      max stored.queuedRevisionNumber excluded.queuedRevisionNumber := by
  unfold merge
  split <;> simp <;> omega

theorem ClaimGateSegmentRow.advances_merge : stored.Advances (merge excluded stored) where
  queued := queuedRevisionNumber_merge excluded stored ▸ le_max_left _ _
  processed := fun revision => by
    unfold HasProcessed
    rw [processedRevisionNumber_merge]
    exact id

section Enqueue

variable {meetingId segmentId : String} {revisionNumber : UInt64} {now : Int}
  {before after : ClaimGateTables}

/-- A new row of the queue. -/
def ClaimGateSegmentRow.enqueued (meetingId segmentId : String) (revisionNumber : UInt64)
    (enqueuedAtMs : Int) : ClaimGateSegmentRow where
  meetingId
  segmentId
  queuedRevisionNumber := asI64 revisionNumber
  processedRevisionNumber := none
  enqueuedAtMs
  processedAtMs := none

section

variable
  (enqueued : enqueueClaimGateSegment meetingId segmentId revisionNumber now before = .ok after)
include enqueued

theorem enqueueClaimGateSegment_eq_ok : after = { before with
      segments := upsertRow ClaimGateSegmentRow.key ClaimGateSegmentRow.merge before.segments
        (.enqueued meetingId segmentId revisionNumber now) } := by
  simp only [enqueueClaimGateSegment, bind_eq_ok_iff, pure_eq_ok_iff] at enqueued
  obtain ⟨-, -, rfl⟩ := enqueued
  rfl

/-- The row of the queue after a segment is enqueued. -/
theorem queued_of_enqueued (key : String × String) : after.queued key =
      if key = (meetingId, segmentId) then
        some ((before.queued (meetingId, segmentId)).elim
          (.enqueued meetingId segmentId revisionNumber now)
          (ClaimGateSegmentRow.merge (.enqueued meetingId segmentId revisionNumber now)))
      else before.queued key := by
  rw [enqueueClaimGateSegment_eq_ok enqueued]
  exact lookup_upsertRow (fun stored => ClaimGateSegmentRow.key_merge _ stored) key

theorem grows_of_enqueued : before.Grows after := by
  have others := enqueueClaimGateSegment_eq_ok enqueued
  refine ⟨fun key row found => ?_, ?_, ?_⟩
  · rw [queued_of_enqueued enqueued]
    split
    · rename_i isSegment
      rw [← isSegment, found]
      exact ⟨_, rfl, ClaimGateSegmentRow.advances_merge _ row⟩
    · exact ⟨row, found, .refl row⟩
  · rw [others]
    exact (ClaimGateTables.Grows.refl before).batches
  · rw [others]
    exact (ClaimGateTables.Grows.refl before).items

end

theorem consistent_of_enqueued {transcript : TranscriptTables}
    (consistent : before.Consistent transcript)
    (enqueued : enqueueClaimGateSegment meetingId segmentId revisionNumber now before = .ok after)
    (stored : ∃ segment, transcript.segment segmentId = some segment ∧
      segment.meetingId = meetingId) : after.Consistent transcript := by
  have others := enqueueClaimGateSegment_eq_ok enqueued
  have grows := grows_of_enqueued enqueued
  constructor
  case queueKeys =>
    rw [others]
    exact nodup_map_upsertRow (fun stored => ClaimGateSegmentRow.key_merge _ stored)
      consistent.queueKeys
  case batchIds =>
    rw [others]
    exact consistent.batchIds
  case revisions =>
    rw [others]
    exact consistent.revisions
  case ofMeeting =>
    intro key row found
    rw [queued_of_enqueued enqueued] at found
    split at found
    · rename_i isSegment
      rw [isSegment]
      exact stored
    · exact consistent.ofMeeting key row found
  case notBeyondQueued =>
    intro key row found
    rw [queued_of_enqueued enqueued] at found
    split at found
    · cases before_eq : before.queued (meetingId, segmentId) with
      | none =>
        rw [before_eq] at found
        cases found
        exact nofun
      | some previous =>
        rw [before_eq] at found
        cases found
        intro processed isProcessed
        simp only [Option.elim, ClaimGateSegmentRow.processedRevisionNumber_merge] at isProcessed
        simp only [Option.elim, ClaimGateSegmentRow.queuedRevisionNumber_merge]
        exact (consistent.notBeyondQueued _ previous before_eq processed isProcessed).trans
          (le_max_left _ _)
    · exact consistent.notBeyondQueued key row found
  case batched =>
    intro item member
    rw [others] at member
    obtain ⟨batch, row, isBatch, found, isQueued, processed⟩ := consistent.batched item member
    obtain ⟨advanced, foundAfter, advances⟩ := grows.queued _ row found
    refine ⟨batch, advanced, ?_, foundAfter, isQueued.trans advances.queued,
      fun isProcessed => advances.processed _ (processed isProcessed)⟩
    rw [others]
    exact isBatch

end Enqueue

/-!
## Claim gate batches

Beginning and completing a batch keep the queue and the batches consistent,
and doing it again changes nothing.
-/

open List hiding lookup
open Validation

/-- A batch that was begun with some turns, whether or not it is processed. -/
def ClaimGateTables.HasBegun (tables : ClaimGateTables) (meetingId : String)
    (batch : MeetingClaimGateBatchBeginDto) : Prop :=
  ∃ stored, tables.batch batch.id = some stored ∧ stored.meetingId = meetingId ∧
    stored.idempotencyKey = batch.idempotencyKey ∧
    (tables.batchItems batch.id).map ClaimGateBatchSegmentRow.turn = batch.turns

def ClaimGateTables.HasCompleted (tables : ClaimGateTables) (meetingId batchId : String) : Prop :=
  ∃ stored, tables.batch batchId = some stored ∧ stored.meetingId = meetingId ∧
    stored.processedAtMs.isSome

namespace ClaimGateTables.Grows

variable {before after : ClaimGateTables} (grows : before.Grows after)

include grows

variable {meetingId : String}

theorem hasBegun {batch : MeetingClaimGateBatchBeginDto} (begun : before.HasBegun meetingId batch) :
    after.HasBegun meetingId batch := by
  obtain ⟨stored, found, sameMeeting, sameKey, turns⟩ := begun
  obtain ⟨kept, foundAfter, meetingKept, keyKept, -⟩ := grows.batches _ stored found
  refine ⟨kept, foundAfter, meetingKept.trans sameMeeting, keyKept.trans sameKey, ?_⟩
  rw [grows.items _ stored found]
  exact turns

theorem hasCompleted {batchId : String} (completed : before.HasCompleted meetingId batchId) :
    after.HasCompleted meetingId batchId := by
  obtain ⟨stored, found, sameMeeting, processed⟩ := completed
  obtain ⟨kept, foundAfter, meetingKept, -, processedKept⟩ := grows.batches _ stored found
  exact ⟨kept, foundAfter, meetingKept.trans sameMeeting, processedKept processed⟩

end ClaimGateTables.Grows

/-! ## Beginning a batch -/

section Begin

variable {meetingId : String} {transcript : TranscriptTables} {now : Int}
  {before after : ClaimGateTables} {batch : MeetingClaimGateBatchBeginDto}

variable {tables : ClaimGateTables} {turn : MeetingClaimGateTurnDto}

theorem isLocked_iff {segmentId : String} {revision : Int} : tables.isLocked segmentId revision ↔
      ∃ item ∈ tables.batchSegments, item.revision = (segmentId, revision) ∧
        ∃ batch, tables.batch item.batchId = some batch ∧ batch.processedAtMs = none := by
  simp [ClaimGateTables.isLocked, ClaimGateTables.isUnprocessed, ClaimGateBatchSegmentRow.revision,
    Option.any_eq_true]

/-- A turn passes its checks only with a queued revision that is newer than the
processed one and not in another batch. -/
theorem checkBatchTurn_eq_ok (checked : checkBatchTurn meetingId transcript tables turn = .ok ⟨⟩) :
    ∃ row segment, tables.queued (meetingId, turn.id) = some row ∧
      transcript.segment turn.id = some segment ∧ segment.meetingId = meetingId ∧
      asI64 turn.revisionNumber ≤ row.queuedRevisionNumber ∧
      ¬row.HasProcessed (asI64 turn.revisionNumber) ∧
      ¬tables.isLocked turn.id (asI64 turn.revisionNumber) := by
  unfold checkBatchTurn at checked
  cases found : lookup ClaimGateSegmentRow.key tables.segments (meetingId, turn.id) with
  | none => simp [found] at checked
  | some row =>
    obtain ⟨sameMeeting, sameSegment⟩ := Prod.mk.inj (lookup_eq_some found).2
    simp only [found] at checked
    cases joined : transcript.gateSegment row with
    | none => simp [joined] at checked
    | some segment =>
      simp only [joined, bind_eq_ok_iff, ensure_eq_ok_iff] at checked
      obtain ⟨-, ⟨isQueued, notProcessed⟩, -, -, notLocked⟩ := checked
      obtain ⟨stored, conditions⟩ := Option.filter_eq_some_iff.mp joined
      rw [sameSegment] at stored
      simp only [Bool.and_eq_true, decide_eq_true_eq] at conditions
      refine ⟨row, segment, found, stored, conditions.1.1.trans sameMeeting, isQueued, ?_,
        by simp [notLocked]⟩
      rintro ⟨processed, isProcessed, notOlder⟩
      exact absurd (notProcessed processed isProcessed) (not_lt.mpr notOlder)

/-- The tables after a new batch begins. -/
def ClaimGateTables.beginBatch (tables : ClaimGateTables) (meetingId : String) (now : Int)
    (batch : MeetingClaimGateBatchBeginDto) : ClaimGateTables :=
  { tables with
    batches := tables.batches ++
      [{ id := batch.id
         meetingId
         idempotencyKey := batch.idempotencyKey
         processedAtMs := none
         createdAtMs := now }]
    batchSegments := tables.batchSegments ++
      batch.turns.mapIdx (ofTurn batch.id) }

theorem beginClaimGateBatch_eq_ok
    (begun : beginClaimGateBatch meetingId transcript now before batch = .ok after) :
    after = before ∧ before.HasBegun meetingId batch ∨
      before.batch batch.id = none ∧
        (∀ turn ∈ batch.turns, checkBatchTurn meetingId transcript before turn = .ok ⟨⟩) ∧
        (batch.turns.map MeetingClaimGateTurnDto.id).Nodup ∧
        after = before.beginBatch meetingId now batch := by
  unfold beginClaimGateBatch at begun
  cases found : before.batch batch.id with
  | some stored =>
    simp only [found, bind_eq_ok_iff, ensure_eq_ok_iff, pure_eq_ok_iff] at begun
    obtain ⟨-, ⟨sameMeeting, sameKey⟩, -, turns, rfl⟩ := begun
    exact .inl ⟨rfl, stored, found, sameMeeting, sameKey, turns⟩
  | none =>
    simp only [found, bind_eq_ok_iff, ensure_eq_ok_iff, pure_eq_ok_iff] at begun
    obtain ⟨_, checked, _, -, _, nodup, rfl⟩ := begun
    exact .inr ⟨rfl, forEach_eq_ok_iff.mp checked, nodup, rfl⟩

/-- Beginning a batch again changes nothing. -/
theorem ClaimGateTables.HasBegun.begin_again (begun : before.HasBegun meetingId batch) :
    beginClaimGateBatch meetingId transcript now before batch = .ok before := by
  obtain ⟨stored, found, sameMeeting, sameKey, turns⟩ := begun
  unfold beginClaimGateBatch
  simp only [found, bind_eq_ok_iff, ensure_eq_ok_iff, pure_eq_ok_iff]
  exact ⟨⟨⟩, ⟨sameMeeting, sameKey⟩, ⟨⟩, turns, trivial⟩

/-! ### The new rows -/

theorem mem_ofTurns {item : ClaimGateBatchSegmentRow}
    (member : item ∈ batch.turns.mapIdx (ofTurn batch.id)) :
    item.batchId = batch.id ∧ ∃ turn ∈ batch.turns,
      item.revision = (turn.id, asI64 turn.revisionNumber) := by
  obtain ⟨ordinal, bound, rfl⟩ := mem_mapIdx.mp member
  exact ⟨rfl, _, getElem_mem bound, rfl⟩

theorem batch_beginBatch (absent : before.batch batch.id = none) (id : String) :
    (before.beginBatch meetingId now batch).batch id =
      if id = batch.id then some ⟨batch.id, meetingId, batch.idempotencyKey, none, now⟩
      else before.batch id := by
  have isNew : (ClaimGateBatchRow.mk batch.id meetingId batch.idempotencyKey none now).id ∉
      before.batches.map ClaimGateBatchRow.id :=
    lookup_eq_none_iff.mp absent
  exact lookup_snoc isNew id

theorem turn_ofTurn {ordinal : Nat} (inRange : turn.revisionNumber.toNat ≤ maxI64) :
    (ofTurn batch.id ordinal turn).turn = turn := by
  have small : turn.revisionNumber.toNat < 2 ^ 63 := by
    unfold maxI64 at inRange
    omega
  unfold ClaimGateBatchSegmentRow.turn ofTurn
  simp [maxZeroAsU64_asI64 small]

/-- The rows of a new batch are its turns, in their order. -/
theorem batchItems_beginBatch_self {transcript : TranscriptTables}
    (consistent : before.Consistent transcript) (absent : before.batch batch.id = none) :
    (before.beginBatch meetingId now batch).batchItems batch.id =
      batch.turns.mapIdx (ofTurn batch.id) := by
  have noneBefore : before.batchSegments.filter (fun row => row.batchId = batch.id) = [] := by
    refine filter_eq_nil_iff.mpr fun item member => ?_
    obtain ⟨stored, _, found, -⟩ := consistent.batched item member
    simp only [decide_eq_true_eq]
    rintro isBatch
    rw [isBatch, absent] at found
    cases found
  have allAfter : (batch.turns.mapIdx (ofTurn batch.id)).filter
      (fun row => row.batchId = batch.id) =
        batch.turns.mapIdx (ofTurn batch.id) :=
    filter_eq_self.mpr fun item member => decide_eq_true (mem_ofTurns member).1
  unfold ClaimGateTables.batchItems ClaimGateTables.beginBatch
  rw [filter_append, noneBefore, nil_append, allAfter]
  refine Pairwise.insertionSort_eq (pairwise_iff_getElem.mpr ?_)
  intro first second _ _ ordered
  simp only [getElem_mapIdx]
  exact ordered.le

theorem batchItems_beginBatch_of_ne {id : String} (other : id ≠ batch.id) :
    (before.beginBatch meetingId now batch).batchItems id = before.batchItems id := by
  have noneAfter : (batch.turns.mapIdx (ofTurn batch.id)).filter
      (fun row => row.batchId = id) = [] := by
    refine filter_eq_nil_iff.mpr fun item member => ?_
    simp [(mem_ofTurns member).1, Ne.symm other]
  unfold ClaimGateTables.batchItems ClaimGateTables.beginBatch
  rw [filter_append, noneAfter, append_nil]

/-! ### The effect -/

theorem grows_of_beginBatch (absent : before.batch batch.id = none) :
    before.Grows (before.beginBatch meetingId now batch) where
  queued := fun _ row found => ⟨row, found, .refl row⟩
  batches := fun id stored found => by
    rw [batch_beginBatch absent, if_neg]
    · exact ⟨stored, found, rfl, rfl, fun processed => processed⟩
    · rintro rfl
      rw [absent] at found
      cases found
  items := fun id stored found => by
    refine batchItems_beginBatch_of_ne ?_
    rintro rfl
    rw [absent] at found
    cases found

/-- A revision that passes the checks of a turn is in no batch. -/
theorem revision_notMem_of_checked (consistent : before.Consistent transcript)
    (checked : checkBatchTurn meetingId transcript before turn = .ok ⟨⟩) :
    (turn.id, asI64 turn.revisionNumber) ∉
      before.batchSegments.map ClaimGateBatchSegmentRow.revision := by
  obtain ⟨row, segment, found, stored, sameMeeting, -, notProcessed, notLocked⟩ :=
    checkBatchTurn_eq_ok checked
  intro isBatched
  obtain ⟨item, member, sameRevision⟩ := mem_map.mp isBatched
  obtain ⟨sameSegment, sameNumber⟩ := Prod.mk.inj sameRevision
  obtain ⟨other, otherRow, isBatch, otherFound, -, processed⟩ := consistent.batched item member
  -- the segment belongs to one meeting, so both batches are about the same row of the queue
  have sameRow : otherRow = row := by
    obtain ⟨otherSegment, otherStored, otherMeeting⟩ := consistent.ofMeeting _ otherRow otherFound
    simp only [sameSegment, stored, Option.some.injEq] at otherStored
    subst otherStored
    have meeting_eq : other.meetingId = meetingId := otherMeeting.symm.trans sameMeeting
    rw [sameSegment, meeting_eq, found] at otherFound
    exact (Option.some.inj otherFound).symm
  cases isProcessed : other.processedAtMs with
  | none =>
    exact notLocked (isLocked_iff.mpr ⟨item, member, sameRevision, other, isBatch, isProcessed⟩)
  | some time =>
    rw [← sameRow, ← sameNumber] at notProcessed
    exact notProcessed (processed (by simp [isProcessed]))

theorem consistent_of_beginBatch (consistent : before.Consistent transcript)
    (absent : before.batch batch.id = none)
    (checked : ∀ turn ∈ batch.turns, checkBatchTurn meetingId transcript before turn = .ok ⟨⟩)
    (nodup : (batch.turns.map MeetingClaimGateTurnDto.id).Nodup) :
    (before.beginBatch meetingId now batch).Consistent transcript where
  queueKeys := consistent.queueKeys
  batchIds := by
    rw [ClaimGateTables.beginBatch, map_append, nodup_append]
    refine ⟨consistent.batchIds, nodup_singleton _, ?_⟩
    rintro id member _ isNew rfl
    rw [mem_singleton.mp isNew] at member
    exact lookup_eq_none_iff.mp absent member
  revisions := by
    have newRevisions : (batch.turns.mapIdx (ofTurn batch.id)).map
        ClaimGateBatchSegmentRow.revision =
          batch.turns.map fun turn => (turn.id, asI64 turn.revisionNumber) :=
      ext_getElem (by simp) fun _ _ _ => by
        simp [ClaimGateBatchSegmentRow.revision, ofTurn]
    rw [ClaimGateTables.beginBatch, map_append, newRevisions, nodup_append]
    refine ⟨consistent.revisions, ?_, ?_⟩
    · refine Nodup.of_map Prod.fst ?_
      rw [map_map]
      exact nodup
    · rintro revision member _ isNew rfl
      obtain ⟨turn, isTurn, rfl⟩ := mem_map.mp isNew
      exact revision_notMem_of_checked consistent (checked turn isTurn) member
  ofMeeting := consistent.ofMeeting
  notBeyondQueued := consistent.notBeyondQueued
  batched := fun item member => by
    obtain member | member := mem_append.mp member
    · obtain ⟨stored, row, isBatch, found, isQueued, processed⟩ := consistent.batched item member
      refine ⟨stored, row, ?_, found, isQueued, processed⟩
      rw [batch_beginBatch absent, if_neg]
      · exact isBatch
      · rintro isNew
        rw [isNew, absent] at isBatch
        cases isBatch
    · obtain ⟨isBatch, turn, isTurn, sameRevision⟩ := mem_ofTurns member
      obtain ⟨sameSegment, sameNumber⟩ := Prod.mk.inj sameRevision
      obtain ⟨row, -, found, -, -, isQueued, -⟩ := checkBatchTurn_eq_ok (checked turn isTurn)
      refine ⟨_, row, (batch_beginBatch absent _).trans (if_pos isBatch), ?_, ?_, nofun⟩
      · rw [sameSegment]
        exact found
      · rw [sameNumber]
        exact isQueued

/-- What a successful begin leaves behind. -/
theorem begin_effect (consistent : before.Consistent transcript)
    (inRange : ∀ turn ∈ batch.turns, turn.revisionNumber.toNat ≤ maxI64)
    (begun : beginClaimGateBatch meetingId transcript now before batch = .ok after) :
    before.Grows after ∧ after.Consistent transcript ∧ after.HasBegun meetingId batch := by
  obtain ⟨rfl, begun⟩ | ⟨absent, checked, nodup, rfl⟩ := beginClaimGateBatch_eq_ok begun
  · exact ⟨.refl after, consistent, begun⟩
  · refine ⟨grows_of_beginBatch absent,
      consistent_of_beginBatch consistent absent checked nodup,
      _, (batch_beginBatch absent _).trans (if_pos rfl), rfl, rfl, ?_⟩
    rw [batchItems_beginBatch_self consistent absent]
    refine ext_getElem (by simp) fun ordinal bound _ => ?_
    simp only [getElem_map, getElem_mapIdx]
    exact turn_ofTurn (inRange _ (getElem_mem _))

end Begin

/-! ## Completing a batch -/

namespace ClaimGateSegmentRow

variable (revision now : Int) (row : ClaimGateSegmentRow)

theorem mem_processedRevisionNumber_process {processed : Int} :
    processed ∈ (row.process revision now).processedRevisionNumber →
      processed ∈ row.processedRevisionNumber ∨ processed = revision := by
  unfold process
  cases row.processedRevisionNumber with
  | none => exact fun isRevision => .inr (Option.mem_some_iff.mp isRevision).symm
  | some previous =>
    simp only
    split
    · exact fun isRevision => .inr (Option.mem_some_iff.mp isRevision).symm
    · exact .inl

theorem hasProcessed_process : (row.process revision now).HasProcessed revision := by
  unfold process HasProcessed
  cases row.processedRevisionNumber with
  | none => exact ⟨revision, rfl, le_refl _⟩
  | some previous =>
    by_cases older : previous < revision
    · exact ⟨revision, by simp [older], le_refl _⟩
    · exact ⟨previous, by simp [older], not_lt.mp older⟩

theorem advances_process : row.Advances (row.process revision now) where
  queued := le_refl _
  processed := by
    rintro other ⟨previous, isPrevious, notOlder⟩
    unfold process HasProcessed
    rw [Option.mem_def.mp isPrevious]
    by_cases older : previous < revision
    · exact ⟨revision, by simp [older], notOlder.trans older.le⟩
    · exact ⟨previous, by simp [older], notOlder⟩

end ClaimGateSegmentRow

/-- The queue after the first rows of a batch were processed. -/
structure QueueProcessed (meetingId : String) (before : List ClaimGateSegmentRow)
    (done : List ClaimGateBatchSegmentRow) (after : List ClaimGateSegmentRow) : Prop where
  keys : after.map ClaimGateSegmentRow.key = before.map ClaimGateSegmentRow.key
  rows : ∀ key row, lookup ClaimGateSegmentRow.key before key = some row →
    ∃ advanced, lookup ClaimGateSegmentRow.key after key = some advanced ∧
      row.Advances advanced ∧ advanced.queuedRevisionNumber = row.queuedRevisionNumber ∧
      ∀ processed ∈ advanced.processedRevisionNumber,
        processed ∈ row.processedRevisionNumber ∨
          ∃ item ∈ done, (meetingId, item.segmentId) = key ∧
            item.segmentRevisionNumber = processed
  reached : ∀ item ∈ done, ∀ row,
    lookup ClaimGateSegmentRow.key after (meetingId, item.segmentId) = some row →
      row.HasProcessed item.segmentRevisionNumber

section Complete

variable {meetingId : String} {now : Int}

theorem QueueProcessed.nil (queue : List ClaimGateSegmentRow) :
    QueueProcessed meetingId queue [] queue where
  keys := rfl
  rows := fun _ row found => ⟨row, found, .refl row, rfl, fun _ => .inl⟩
  reached := nofun

/-- One row of a batch: its segment is processed up to its revision. -/
theorem QueueProcessed.snoc {before middle after : List ClaimGateSegmentRow}
    {done : List ClaimGateBatchSegmentRow} {item : ClaimGateBatchSegmentRow}
    (earlier : QueueProcessed meetingId before done middle)
    (processed : processSegment meetingId now middle item = .ok after) :
    QueueProcessed meetingId before (done ++ [item]) after := by
  simp only [processSegment, bind_eq_ok_iff, pure_eq_ok_iff] at processed
  obtain ⟨-, -, rfl⟩ := processed
  have keyKept (row : ClaimGateSegmentRow) :
      (row.process item.segmentRevisionNumber now).key = row.key := rfl
  refine ⟨(map_updateWhere keyKept).trans earlier.keys, fun key row found => ?_,
    fun other member row found => ?_⟩
  · obtain ⟨advanced, foundMiddle, advances, sameQueued, origin⟩ := earlier.rows key row found
    rw [lookup_updateWhere keyKept, foundMiddle]
    have advanced_key := (lookup_eq_some foundMiddle).2
    have originLater : ∀ processed ∈ advanced.processedRevisionNumber,
        processed ∈ row.processedRevisionNumber ∨
          ∃ other ∈ done ++ [item], (meetingId, other.segmentId) = key ∧
            other.segmentRevisionNumber = processed := by
      intro processed isProcessed
      obtain isOld | ⟨other, member, same⟩ := origin processed isProcessed
      · exact .inl isOld
      · exact .inr ⟨other, mem_append_left _ member, same⟩
    by_cases isItem : advanced.key = (meetingId, item.segmentId)
    · refine ⟨_, congrArg some (if_pos (decide_eq_true isItem)),
        advances.trans (advanced.advances_process _ now), sameQueued, ?_⟩
      intro processed isProcessed
      obtain isOld | rfl := advanced.mem_processedRevisionNumber_process _ now isProcessed
      · exact originLater processed isOld
      · exact .inr ⟨item, mem_append_right _ (mem_singleton_self item),
          isItem.symm.trans advanced_key, rfl⟩
    · exact ⟨advanced, congrArg some (if_neg (by simp [isItem])), advances, sameQueued, originLater⟩
  · rw [lookup_updateWhere keyKept, Option.map_eq_some_iff] at found
    obtain ⟨previous, foundMiddle, rfl⟩ := found
    obtain isDone | isItem := mem_append.mp member
    · have reached := earlier.reached other isDone previous foundMiddle
      split
      · exact (previous.advances_process _ now).processed _ reached
      · exact reached
    · rw [mem_singleton.mp isItem] at foundMiddle ⊢
      rw [if_pos (decide_eq_true (lookup_eq_some foundMiddle).2)]
      exact previous.hasProcessed_process _ now

variable {before after : ClaimGateTables} {batchId : String}

/-- The tables after a batch is completed, with the queue it leaves. -/
def ClaimGateTables.completeBatch (tables : ClaimGateTables) (batchId : String) (now : Int)
    (queue : List ClaimGateSegmentRow) : ClaimGateTables :=
  { tables with
    segments := queue
    batches := updateWhere (fun stored => stored.id = batchId ∧ stored.processedAtMs = none)
      (fun stored => { stored with processedAtMs := some now }) tables.batches }

theorem completeClaimGateBatch_eq_ok
    (completed : completeClaimGateBatch meetingId now before batchId = .ok after) :
    after = before ∧ before.HasCompleted meetingId batchId ∨
      ∃ batch queue, before.batch batchId = some batch ∧ batch.meetingId = meetingId ∧
        QueueProcessed meetingId before.segments (before.batchItems batchId) queue ∧
        after = before.completeBatch batchId now queue := by
  unfold completeClaimGateBatch at completed
  cases found : before.batch batchId with
  | none => simp [found] at completed
  | some batch =>
    simp only [found, bind_eq_ok_iff, ensure_eq_ok_iff] at completed
    obtain ⟨-, sameMeeting, completed⟩ := completed
    cases isProcessed : batch.processedAtMs with
    | some time =>
      simp only [isProcessed, pure_eq_ok_iff] at completed
      exact .inl ⟨completed.symm, batch, found, sameMeeting, by simp [isProcessed]⟩
    | none =>
      simp only [isProcessed, bind_eq_ok_iff, pure_eq_ok_iff] at completed
      obtain ⟨-, -, queue, folded, rfl⟩ := completed
      refine .inr ⟨batch, queue, rfl, sameMeeting, ?_, rfl⟩
      exact foldlM_history
        (fun done queue => QueueProcessed meetingId before.segments done queue) []
        (fun _ _ _ _ _ processed earlier => earlier.snoc processed) folded (.nil _)

theorem ClaimGateTables.HasCompleted.complete_again
    (completed : before.HasCompleted meetingId batchId) :
    completeClaimGateBatch meetingId now before batchId = .ok before := by
  obtain ⟨stored, found, sameMeeting, processed⟩ := completed
  obtain ⟨time, isProcessed⟩ := Option.isSome_iff_exists.mp processed
  unfold completeClaimGateBatch
  simp only [found, isProcessed, bind_eq_ok_iff, ensure_eq_ok_iff, pure_eq_ok_iff]
  exact ⟨⟨⟩, sameMeeting, trivial⟩

theorem id_processed (now : Int) (stored : ClaimGateBatchRow) :
    { stored with processedAtMs := some now }.id = stored.id :=
  rfl

variable {queue : List ClaimGateSegmentRow} {transcript : TranscriptTables}

theorem batch_completeBatch (id : String) : (before.completeBatch batchId now queue).batch id =
      (before.batch id).map fun stored =>
        if stored.id = batchId ∧ stored.processedAtMs = none then
          { stored with processedAtMs := some now }
        else stored := by
  refine (lookup_updateWhere (id_processed now) id).trans ?_
  simp only [decide_eq_true_eq]
  rfl

theorem grows_of_completeBatch
    (processed : QueueProcessed meetingId before.segments (before.batchItems batchId) queue) :
    before.Grows (before.completeBatch batchId now queue) where
  queued := fun key row found => by
    obtain ⟨advanced, foundAfter, advances, -⟩ := processed.rows key row found
    exact ⟨advanced, foundAfter, advances⟩
  batches := fun id stored found => by
    rw [batch_completeBatch, found, Option.map_some]
    refine ⟨_, rfl, ?_⟩
    split
    · exact ⟨rfl, rfl, fun _ => rfl⟩
    · exact ⟨rfl, rfl, fun processed => processed⟩
  items := fun _ _ _ => rfl

theorem consistent_of_completeBatch {batch : ClaimGateBatchRow}
    (consistent : before.Consistent transcript) (found : before.batch batchId = some batch)
    (sameMeeting : batch.meetingId = meetingId)
    (processed : QueueProcessed meetingId before.segments (before.batchItems batchId) queue) :
    (before.completeBatch batchId now queue).Consistent transcript := by
  have grows : before.Grows (before.completeBatch batchId now queue) :=
    grows_of_completeBatch processed
  -- every row of the queue is one that was there before, possibly processed further
  have fromBefore : ∀ key row, lookup ClaimGateSegmentRow.key queue key = some row →
      ∃ earlier, before.queued key = some earlier := by
    intro key row foundAfter
    have member := lookup_eq_some foundAfter
    cases foundBefore : before.queued key with
    | some earlier => exact ⟨earlier, rfl⟩
    | none =>
      refine absurd ?_ (lookup_eq_none_iff.mp foundBefore)
      rw [← processed.keys, ← member.2]
      exact mem_map_of_mem member.1
  constructor
  case queueKeys =>
    change (queue.map ClaimGateSegmentRow.key).Nodup
    rw [processed.keys]
    exact consistent.queueKeys
  case batchIds =>
    change (map ClaimGateBatchRow.id (updateWhere _ _ _)).Nodup
    rw [map_updateWhere (id_processed now)]
    exact consistent.batchIds
  case revisions => exact consistent.revisions
  case ofMeeting =>
    intro key row foundAfter
    obtain ⟨earlier, foundBefore⟩ := fromBefore key row foundAfter
    exact consistent.ofMeeting key earlier foundBefore
  case notBeyondQueued =>
    intro key row foundAfter revision isProcessed
    obtain ⟨earlier, foundBefore⟩ := fromBefore key row foundAfter
    obtain ⟨advanced, foundAdvanced, -, sameQueued, origin⟩ :=
      processed.rows key earlier foundBefore
    obtain rfl : advanced = row := Option.some.inj (foundAdvanced.symm.trans foundAfter)
    rw [sameQueued]
    obtain isOld | ⟨item, member, rfl, rfl⟩ := origin revision isProcessed
    · exact consistent.notBeyondQueued key earlier foundBefore revision isOld
    · obtain ⟨isItem, isOfBatch⟩ := mem_filter.mp ((mem_insertionSort _).mp member)
      obtain ⟨other, row, isBatch, foundRow, isQueued, -⟩ := consistent.batched item isItem
      rw [of_decide_eq_true isOfBatch, found, Option.some.injEq] at isBatch
      rw [← isBatch, sameMeeting, foundBefore, Option.some.injEq] at foundRow
      exact foundRow ▸ isQueued
  case batched =>
    intro item member
    obtain ⟨stored, row, isBatch, foundRow, isQueued, wasProcessed⟩ :=
      consistent.batched item member
    obtain ⟨advanced, foundAfter, advances⟩ := grows.queued _ row foundRow
    rw [batch_completeBatch, isBatch, Option.map_some]
    refine ⟨_, advanced, rfl, ?_, isQueued.trans advances.queued, ?_⟩
    · split <;> exact foundAfter
    · split
      · rename_i isCompleted
        intro _
        have isOfBatch : item.batchId = batchId :=
          (lookup_eq_some isBatch).2.symm.trans isCompleted.1
        rw [isOfBatch, found, Option.some.injEq] at isBatch
        rw [← isBatch, sameMeeting] at foundAfter
        exact processed.reached item ((mem_insertionSort _).mpr
          (mem_filter.mpr ⟨member, decide_eq_true isOfBatch⟩)) advanced foundAfter
      · exact fun isProcessed => advances.processed _ (wasProcessed isProcessed)

/-- What a successful completion leaves behind. -/
theorem complete_effect (consistent : before.Consistent transcript)
    (completed : completeClaimGateBatch meetingId now before batchId = .ok after) :
    before.Grows after ∧ after.Consistent transcript ∧ after.HasCompleted meetingId batchId := by
  obtain ⟨rfl, completed⟩ | ⟨batch, queue, found, sameMeeting, processed, rfl⟩ :=
    completeClaimGateBatch_eq_ok completed
  · exact ⟨.refl after, consistent, completed⟩
  · refine ⟨grows_of_completeBatch processed,
      consistent_of_completeBatch consistent found sameMeeting processed, ?_⟩
    refine ⟨_, (batch_completeBatch batchId).trans (by rw [found, Option.map_some]), ?_, ?_⟩
    · split <;> exact sameMeeting
    · split
      · rfl
      · rename_i notCompleted
        have isBatch := (lookup_eq_some found).2
        exact Option.isSome_iff_ne_none.mpr fun unprocessed => notCompleted ⟨isBatch, unprocessed⟩

end Complete

end Obelus.Meetings
