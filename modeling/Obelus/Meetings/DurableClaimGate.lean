import Obelus.Meetings.ClaimGateBatches
import Obelus.Meetings.Store

/-!
# The durable claim gate

In every run of transcript and claims requests the claim gate neither loses nor
repeats a revision of a segment: each queued revision is pending or in one
batch, and the counters and batches never go back.
-/

namespace Obelus.Meetings

open Obelus.Data List
open Obelus.Transition

/-- The batches that a claims request begins and completes are in the tables. -/
def ClaimGateTables.HasDelivered (tables : ClaimGateTables)
    (request : MeetingClaimsApplyRequest) : Prop :=
  (∀ batch ∈ request.beginClaimGateBatches, tables.HasBegun request.meetingId batch) ∧
    ∀ batchId ∈ request.completeClaimGateBatchIds, tables.HasCompleted request.meetingId batchId

theorem ClaimGateTables.Grows.hasDelivered {before after : ClaimGateTables}
    (grows : before.Grows after) {request : MeetingClaimsApplyRequest}
    (delivered : before.HasDelivered request) : after.HasDelivered request :=
  ⟨fun batch member => grows.hasBegun (delivered.1 batch member),
    fun batchId member => grows.hasCompleted (delivered.2 batchId member)⟩

/-- What one request does to a consistent claim gate. -/
structure GateStep (before after : MeetingsDb) : Prop where
  distinct : after.transcript.DistinctSegments
  consistent : after.claimGate.Consistent after.transcript
  grows : before.claimGate.Grows after.claimGate
  meetings : before.KeepsMeetings after

theorem ClaimGateTables.Consistent.of_transcript {tables : ClaimGateTables}
    {before after : TranscriptTables} (consistent : tables.Consistent before)
    (kept : ∀ id segment, before.segment id = some segment →
      ∃ row, after.segment id = some row ∧ row.meetingId = segment.meetingId) :
    tables.Consistent after :=
  { consistent with
    ofMeeting := fun key row found => by
      obtain ⟨segment, stored, sameMeeting⟩ := consistent.ofMeeting key row found
      obtain ⟨later, storedAfter, meetingKept⟩ := kept key.2 segment stored
      exact ⟨later, storedAfter, meetingKept.trans sameMeeting⟩ }

section Requests

variable {host : StoreHost} {now : Int} {before after : MeetingsDb}

theorem TranscriptApplied.gateStep {request : MeetingTranscriptApplyRequest}
    {versioned : TranscriptTables} {progress : SegmentProgress}
    (applied : TranscriptApplied host now request before after versioned progress)
    (distinct : before.transcript.DistinctSegments)
    (consistent : before.claimGate.Consistent before.transcript) : GateStep before after := by
  have versioned_eq := upsertTranscriptVersion_eq_ok applied.version
  obtain ⟨distinctAfter, consistentAfter, grows⟩ := foldlM_invariant
    (fun progress : SegmentProgress => progress.transcript.DistinctSegments ∧
      progress.claimGate.Consistent progress.transcript ∧
      before.claimGate.Grows progress.claimGate)
    (fun segment _ earlier later stepped ⟨distinct, consistent, grows⟩ => by
      obtain ⟨outcome, upserted, queued⟩ := applySegment_eq_ok stepped
      have kept := consistent.of_transcript fun id segment found => upserted.segment_kept found
      refine ⟨upserted.distinctSegments distinct, ?_⟩
      split at queued
      · exact ⟨consistent_of_enqueued kept queued upserted.segment_meetingId,
          grows.trans (grows_of_enqueued queued)⟩
      · rw [queued]
        exact ⟨kept, grows⟩)
    applied.segments
    ⟨by rw [versioned_eq]; exact distinct,
      consistent.of_transcript fun id segment found => by
        rw [versioned_eq]
        exact ⟨segment, found, rfl⟩,
      .refl _⟩
  refine ⟨?_, ?_, ?_, applied.meetings⟩
  · rw [applied.transcript]
    exact distinctAfter
  · rw [applied.transcript, applied.claimGate]
    exact consistentAfter.of_transcript fun id segment found => ⟨segment, found, rfl⟩
  · rw [applied.claimGate]
    exact grows

/-- What a successful claims request leaves behind. -/
theorem applyClaimsChanges_eq_ok {request : MeetingClaimsApplyRequest}
    (applied : applyClaimsChanges host now request before = .ok (⟨⟩, after))
    (distinct : before.transcript.DistinctSegments)
    (consistent : before.claimGate.Consistent before.transcript) :
    validateClaimsRequest host request = .ok ⟨⟩ ∧ getMeeting before request.meetingId = .ok ⟨⟩ ∧
      after.claimGate.HasDelivered request ∧ GateStep before after := by
  simp only [applyClaimsChanges, bind_eq_ok_iff] at applied
  obtain ⟨_, valid, _, meeting, _, -, begun, begins, _, -, _, -, completed, completes, -, rfl⟩ :=
    applied
  have inRange := revisions_of_validateClaimsRequest valid
  obtain ⟨begunGrows, begunConsistent, hasBegun⟩ := foldlM_history
    (fun done tables => before.claimGate.Grows tables ∧
      tables.Consistent before.transcript ∧
      ∀ batch ∈ done, tables.HasBegun request.meetingId batch) []
    (fun done batch member earlier later begin soFar => by
      obtain ⟨grows, consistent, hasBegun⟩ := soFar
      obtain ⟨stepGrows, consistent, begun⟩ := begin_effect consistent (inRange batch member) begin
      refine ⟨grows.trans stepGrows, consistent, forall_mem_append.mpr
        ⟨fun other isDone => stepGrows.hasBegun (hasBegun other isDone), ?_⟩⟩
      exact forall_mem_singleton.mpr begun)
    begins ⟨.refl _, consistent, forall_mem_nil _⟩
  obtain ⟨completedGrows, completedConsistent, hasCompleted⟩ := foldlM_history
    (fun done tables => begun.Grows tables ∧ tables.Consistent before.transcript ∧
      ∀ batchId ∈ done, tables.HasCompleted request.meetingId batchId) []
    (fun done batchId _ earlier later complete soFar => by
      obtain ⟨grows, consistent, hasCompleted⟩ := soFar
      obtain ⟨stepGrows, consistent, completed⟩ := complete_effect consistent complete
      refine ⟨grows.trans stepGrows, consistent, forall_mem_append.mpr
        ⟨fun other isDone => stepGrows.hasCompleted (hasCompleted other isDone), ?_⟩⟩
      exact forall_mem_singleton.mpr completed)
    completes ⟨.refl _, begunConsistent, forall_mem_nil _⟩
  exact ⟨valid, meeting,
    ⟨fun batch member => completedGrows.hasBegun (hasBegun batch member), hasCompleted⟩,
    distinct, completedConsistent, begunGrows.trans completedGrows,
    map_updateWhere fun _ => rfl⟩

end Requests

/-- Transcript and claims requests of any meetings. -/
def anyRequest : Guard MeetingsDb Delivery Answer :=
  fun _ _ _ => True

instance (config : Config MeetingsDb Answer) (delivery : Delivery)
    (next : Config MeetingsDb Answer) : Decidable (anyRequest config delivery next) :=
  isTrue trivial

/-- A claims request that only begins and completes batches. -/
def MeetingClaimsApplyRequest.IsGateOnly (request : MeetingClaimsApplyRequest) : Prop :=
  request.manualFactCheckRequests = [] ∧ request.claimVersions = [] ∧
    request.markStaleClaimVersionIds = []

/-- The claims requests of a run that succeeded. -/
def succeededClaims (answers : List Answer) : List MeetingClaimsApplyRequest :=
  answers.filterMap fun answer =>
    match answer.request, answer.result with
    | .claims request, .ok _ => some request
    | _, _ => none

/-- What holds of a store and of the requests it has served. -/
structure GateInvariant (host : StoreHost) (config : Config MeetingsDb Answer) : Prop where
  distinct : config.state.transcript.DistinctSegments
  consistent : config.state.claimGate.Consistent config.state.transcript
  delivered : ∀ request ∈ succeededClaims config.trace,
    validateClaimsRequest host request = .ok ⟨⟩ ∧
      getMeeting config.state request.meetingId = .ok ⟨⟩ ∧
      config.state.claimGate.HasDelivered request

section Runs

variable {host : StoreHost} {config next : Config MeetingsDb Answer} {delivery : Delivery}

/-- One request, whatever the store answers. -/
theorem gateStep_of_serve (host : StoreHost) (delivery : Delivery) {db : MeetingsDb}
    (distinct : db.transcript.DistinctSegments)
    (consistent : db.claimGate.Consistent db.transcript) :
    GateStep db (serve host delivery db).2 := by
  obtain ⟨_, served, -⟩ | ⟨changed, served, applied⟩ := serve_cases host delivery db
  · rw [served]
    exact ⟨distinct, consistent, .refl _, rfl⟩
  · rw [served]
    cases requested : delivery.request with
    | transcript request =>
      simp only [requested] at applied
      obtain ⟨_, applied⟩ := applied
      obtain ⟨_, _, applied⟩ := applyTranscriptChanges_eq_ok applied
      exact applied.gateStep distinct consistent
    | claims request =>
      simp only [requested] at applied
      exact (applyClaimsChanges_eq_ok applied distinct consistent).2.2.2

theorem GateInvariant.advanced (invariant : GateInvariant host config)
    (advanced : advance (step host) config delivery = some next) : GateInvariant host next := by
  obtain ⟨served, traced⟩ := advance_eq_some advanced
  have stepped := gateStep_of_serve host delivery invariant.distinct invariant.consistent
  rw [← served] at stepped
  refine ⟨stepped.distinct, stepped.consistent, fun request succeeded => ?_⟩
  rw [getMeeting_of_keepsMeetings stepped.meetings]
  rw [traced, succeededClaims, filterMap_append, mem_append] at succeeded
  obtain earlier | isLast := succeeded
  · obtain ⟨valid, meeting, delivered⟩ := invariant.delivered request earlier
    exact ⟨valid, meeting, stepped.grows.hasDelivered delivered⟩
  · obtain ⟨_, failed, -⟩ | ⟨changed, succeeded, applied⟩ := serve_cases host delivery config.state
    · simp [failed] at isLast
    · cases requested : delivery.request with
      | transcript _ => simp [requested] at isLast
      | claims served_request =>
        obtain rfl : request = served_request := by
          simpa [requested, succeeded] using isLast
        simp only [requested] at applied
        obtain ⟨valid, meeting, delivered, -⟩ :=
          applyClaimsChanges_eq_ok applied invariant.distinct invariant.consistent
        rw [served, succeeded]
        exact ⟨valid, meeting, delivered⟩

theorem gateInvariant_of_reaches {start : MeetingsDb} (empty : start.claimGate = ⟨[], [], []⟩)
    (distinct : start.transcript.DistinctSegments)
    (reaches : Reaches (step host) anyRequest start config) : GateInvariant host config := by
  refine reaches.invariant (GateInvariant host) ⟨distinct, ?_, nofun⟩
    fun _ _ _ _ invariant advanced _ => invariant.advanced advanced
  rw [Config.initial_state, empty]
  exact ⟨nodup_nil, nodup_nil, nodup_nil, nofun, nofun, nofun⟩

/-- A later part of a run only lets the claim gate grow. -/
theorem grows_of_reaches {later : Config MeetingsDb Answer} (invariant : GateInvariant host config)
    (reaches : Reaches (step host) anyRequest config.state later) :
    config.state.claimGate.Grows later.state.claimGate := by
  suffices holds : later.state.transcript.DistinctSegments ∧
      later.state.claimGate.Consistent later.state.transcript ∧
      config.state.claimGate.Grows later.state.claimGate from holds.2.2
  refine reaches.invariant (fun later => later.state.transcript.DistinctSegments ∧
      later.state.claimGate.Consistent later.state.transcript ∧
      config.state.claimGate.Grows later.state.claimGate)
    ⟨invariant.distinct, invariant.consistent, .refl _⟩ ?_
  intro before after delivery _ ⟨distinct, consistent, grows⟩ advanced _
  have stepped := gateStep_of_serve host delivery distinct consistent
  rw [← (advance_eq_some advanced).1] at stepped
  exact ⟨stepped.distinct, stepped.consistent, grows.trans stepped.grows⟩

/-- A request that only begins and completes batches changes nothing when it is
delivered again, except the time of the last update of its meeting. -/
theorem GateInvariant.redelivered (invariant : GateInvariant host config)
    {request : MeetingClaimsApplyRequest} (gateOnly : request.IsGateOnly)
    (succeeded : request ∈ succeededClaims config.trace) (now : Int) :
    serve host ⟨now, .claims request⟩ config.state =
      (.ok ⟨⟩, config.state.touch request.meetingId now) := by
  obtain ⟨valid, meeting, hasBegun, hasCompleted⟩ := invariant.delivered request succeeded
  obtain ⟨noManual, noVersions, noStale⟩ := gateOnly
  have applied : applyClaimsChanges host now request config.state =
      .ok (⟨⟩, config.state.touch request.meetingId now) := by
    simp only [applyClaimsChanges, bind_eq_ok_iff, noManual, noVersions, noStale]
    exact ⟨⟨⟩, valid, ⟨⟩, meeting, _, rfl, _,
      foldlM_eq_self fun batch member => (hasBegun batch member).begin_again, _, rfl, _, rfl, _,
      foldlM_eq_self fun batchId member => (hasCompleted batchId member).complete_again, rfl⟩
  obtain ⟨_, -, failed⟩ | ⟨changed, served, isChanged⟩ :=
    serve_cases host ⟨now, .claims request⟩ config.state
  · simp only [applied] at failed
    cases failed
  · simp only [applied, Except.ok.injEq, Prod.mk.injEq, true_and] at isChanged
    rw [served, isChanged]

end Runs

/-- A batch that is not processed contains a revision of a segment. -/
def ClaimGateTables.InFlight (tables : ClaimGateTables) (segmentId : String) (revision : Int)
    (batch : ClaimGateBatchRow) : Prop :=
  batch ∈ tables.batches ∧ batch.processedAtMs = none ∧
    ∃ item ∈ tables.batchSegments, item.batchId = batch.id ∧
      item.revision = (segmentId, revision)

section Pending

variable {transcript : TranscriptTables} {tables : ClaimGateTables} {segmentId : String}
  {revision : Int}

theorem isLocked_iff_inFlight (consistent : tables.Consistent transcript) :
    tables.isLocked segmentId revision ↔ ∃ batch, tables.InFlight segmentId revision batch := by
  rw [isLocked_iff]
  constructor
  · rintro ⟨item, member, isRevision, batch, found, unprocessed⟩
    obtain ⟨isBatch, sameId⟩ := lookup_eq_some found
    exact ⟨batch, isBatch, unprocessed, item, member, sameId.symm, isRevision⟩
  · rintro ⟨batch, isBatch, unprocessed, item, member, sameId, isRevision⟩
    exact ⟨item, member, isRevision, batch,
      (lookup_eq_some_iff consistent.batchIds).mpr ⟨isBatch, sameId.symm⟩, unprocessed⟩

/-- No revision is in two batches. -/
theorem inFlight_unique (consistent : tables.Consistent transcript)
    {first second : ClaimGateBatchRow} (inFirst : tables.InFlight segmentId revision first)
    (inSecond : tables.InFlight segmentId revision second) : first = second := by
  obtain ⟨isFirst, -, item, member, sameId, isRevision⟩ := inFirst
  obtain ⟨isSecond, -, other, otherMember, otherId, otherRevision⟩ := inSecond
  obtain rfl := inj_on_of_nodup_map consistent.revisions member otherMember
    (isRevision.trans otherRevision.symm)
  exact inj_on_of_nodup_map consistent.batchIds isFirst isSecond (sameId.symm.trans otherId)

theorem mem_listPendingClaimGateSegmentIds_iff {db : MeetingsDb} {meetingId id : String} :
    id ∈ listPendingClaimGateSegmentIds db meetingId ↔
      ∃ queued ∈ db.claimGate.segments, queued.meetingId = meetingId ∧
        db.claimGate.isPending queued ∧
        ∃ segment, db.transcript.gateSegment queued = some segment ∧ segment.id = id := by
  simp only [listPendingClaimGateSegmentIds, mem_map, mem_insertionSort,
    mem_filterMap, mem_filter, Bool.and_eq_true, decide_eq_true_eq]
  constructor
  · rintro ⟨segment, ⟨queued, ⟨member, sameMeeting, pending⟩, joined⟩, sameId⟩
    exact ⟨queued, member, sameMeeting, pending, segment, joined, sameId⟩
  · rintro ⟨queued, member, sameMeeting, pending, segment, joined, sameId⟩
    exact ⟨segment, ⟨queued, ⟨member, sameMeeting, pending⟩, joined⟩, sameId⟩

/-- A revision of the queue is newer than the processed one. -/
def ClaimGateSegmentRow.IsBehind (row : ClaimGateSegmentRow) : Prop :=
  ∀ processed ∈ row.processedRevisionNumber, processed < row.queuedRevisionNumber

instance (row : ClaimGateSegmentRow) : Decidable row.IsBehind :=
  inferInstanceAs (Decidable (∀ processed ∈ row.processedRevisionNumber, _))

theorem isPending_iff {row : ClaimGateSegmentRow} : tables.isPending row ↔
      row.IsBehind ∧ ¬tables.isLocked row.segmentId row.queuedRevisionNumber := by
  unfold ClaimGateTables.isPending ClaimGateSegmentRow.IsBehind
  cases row.processedRevisionNumber <;> simp

/-- A live segment with final text that the gate is behind on is pending exactly
when its queued revision is in no unprocessed batch. -/
theorem mem_listPending_iff_not_isLocked {db : MeetingsDb}
    (distinct : db.transcript.DistinctSegments)
    (consistent : db.claimGate.Consistent db.transcript) {segment : TranscriptSegmentRow}
    (member : segment ∈ db.transcript.segments) (isLive : db.transcript.isLive segment)
    (isFinal : segment.state = .final ∨ segment.state = .revised) {row : ClaimGateSegmentRow}
    (isQueued : row ∈ db.claimGate.segments) (ofSegment : row.key = (segment.meetingId, segment.id))
    (behind : row.IsBehind) : segment.id ∈ listPendingClaimGateSegmentIds db segment.meetingId ↔
      ¬db.claimGate.isLocked segment.id row.queuedRevisionNumber := by
  obtain ⟨sameMeeting, sameSegment⟩ := Prod.mk.inj ofSegment
  rw [mem_listPendingClaimGateSegmentIds_iff]
  constructor
  · rintro ⟨queued, isRow, queuedMeeting, pending, joined, isJoined, sameId⟩
    obtain ⟨stored, -⟩ := Option.filter_eq_some_iff.mp isJoined
    have sameKey : queued.key = row.key := by
      rw [ofSegment, ← sameId, (lookup_eq_some stored).2, ← queuedMeeting]
      rfl
    obtain rfl := inj_on_of_nodup_map consistent.queueKeys isRow isQueued sameKey
    rw [← sameSegment]
    exact (isPending_iff.mp pending).2
  · intro notLocked
    refine ⟨row, isQueued, sameMeeting, isPending_iff.mpr ⟨behind, by rwa [sameSegment]⟩,
      segment, ?_, rfl⟩
    refine Option.filter_eq_some_iff.mpr ⟨?_, ?_⟩
    · exact (lookup_eq_some_iff distinct).mpr ⟨member, sameSegment.symm⟩
    · simpa [isLive, sameMeeting] using isFinal

end Pending

/-- No revision is in two batches, the counters of a segment keep their order
and never go back, a segment whose queued revision is not processed is pending
or in one unprocessed batch at that revision, delivering a begin or complete
request again changes at most the time of the last update of the meeting, and
an error changes nothing. -/
structure DurableClaimGate (host : StoreHost) (config : Config MeetingsDb Answer) : Prop where
  once : ∀ first ∈ config.state.claimGate.batchSegments,
    ∀ second ∈ config.state.claimGate.batchSegments,
      first.revision = second.revision → first = second
  notBeyondQueued : ∀ row ∈ config.state.claimGate.segments,
    ∀ processed ∈ row.processedRevisionNumber, processed ≤ row.queuedRevisionNumber
  monotone : ∀ later, Reaches (step host) anyRequest config.state later →
    ∀ row ∈ config.state.claimGate.segments,
      ∃ advanced ∈ later.state.claimGate.segments, advanced.key = row.key ∧ row.Advances advanced
  accounted : ∀ segment ∈ config.state.transcript.segments,
    config.state.transcript.isLive segment →
    segment.state = .final ∨ segment.state = .revised →
    ∀ row ∈ config.state.claimGate.segments, row.key = (segment.meetingId, segment.id) →
    row.IsBehind →
      segment.id ∈ listPendingClaimGateSegmentIds config.state segment.meetingId ∧
          (¬∃ batch, config.state.claimGate.InFlight segment.id row.queuedRevisionNumber batch) ∨
        segment.id ∉ listPendingClaimGateSegmentIds config.state segment.meetingId ∧
          ∃! batch, config.state.claimGate.InFlight segment.id row.queuedRevisionNumber batch
  redelivered : ∀ request ∈ succeededClaims config.trace, request.IsGateOnly → ∀ now,
    serve host ⟨now, .claims request⟩ config.state =
      (.ok ⟨⟩, config.state.touch request.meetingId now)
  atomic : ∀ delivery failure, (serve host delivery config.state).1 = .error failure →
    (serve host delivery config.state).2 = config.state

theorem claimGate_durable (host : StoreHost) {start : MeetingsDb}
    (empty : start.claimGate = ⟨[], [], []⟩) (distinct : start.transcript.DistinctSegments)
    {config : Config MeetingsDb Answer}
    (reaches : Reaches (step host) anyRequest start config) : DurableClaimGate host config := by
  have invariant := gateInvariant_of_reaches empty distinct reaches
  have consistent := invariant.consistent
  constructor
  case once =>
    exact inj_on_of_nodup_map consistent.revisions
  case notBeyondQueued =>
    intro row member
    exact consistent.notBeyondQueued row.key row
      ((lookup_eq_some_iff consistent.queueKeys).mpr ⟨member, rfl⟩)
  case monotone =>
    intro later reachesLater row member
    obtain ⟨advanced, found, advances⟩ := (grows_of_reaches invariant reachesLater).queued row.key
      row ((lookup_eq_some_iff consistent.queueKeys).mpr ⟨member, rfl⟩)
    obtain ⟨advancedMember, sameKey⟩ := lookup_eq_some found
    exact ⟨advanced, advancedMember, sameKey, advances⟩
  case accounted =>
    intro segment member isLive isFinal row isQueued ofSegment behind
    rw [mem_listPending_iff_not_isLocked invariant.distinct consistent member isLive isFinal
      isQueued ofSegment behind, isLocked_iff_inFlight consistent, not_not]
    by_cases inFlight :
        ∃ batch, config.state.claimGate.InFlight segment.id row.queuedRevisionNumber batch
    · obtain ⟨batch, isInFlight⟩ := inFlight
      exact .inr ⟨⟨batch, isInFlight⟩, batch, isInFlight,
        fun other otherInFlight => inFlight_unique consistent otherInFlight isInFlight⟩
    · exact .inl ⟨inFlight, inFlight⟩
  case redelivered =>
    exact fun request succeeded gateOnly => invariant.redelivered gateOnly succeeded
  case atomic => exact fun delivery failure => serve_of_error

def recordedTurn (revisionNumber : UInt64) (text : String) : MeetingClaimGateTurnDto where
  id := recordedSegmentId
  speakerId := none
  startMs := 0
  endMs := 1000
  text
  revisionNumber
  sourceKind := .microphone

def recordedGateRequest (batches : List MeetingClaimGateBatchBeginDto)
    (completed : List String) : MeetingClaimsApplyRequest where
  meetingId := recordedMeetingId
  manualFactCheckRequests := []
  claimVersions := []
  markStaleClaimVersionIds := []
  beginClaimGateBatches := batches
  completeClaimGateBatchIds := completed

def recordedBatch : MeetingClaimGateBatchBeginDto where
  id := "9d3b2a10-5c4d-4e6f-8a7b-1c2d3e4f5a01"
  idempotencyKey := "batch-1"
  turns := [recordedTurn 1 "The sky is blue."]

def laterBatch : MeetingClaimGateBatchBeginDto where
  id := "9d3b2a10-5c4d-4e6f-8a7b-1c2d3e4f5a02"
  idempotencyKey := "batch-2"
  turns := [recordedTurn 2 "The sea is blue."]

theorem claimGate_durable_recorded : ∃ config, exec (step recordedHost) (Config.initial recordedDb)
        [recordedTranscript (recordedSegment 1 "The sky is blue."),
          ⟨20, .claims (recordedGateRequest [recordedBatch] [])⟩,
          ⟨30, .claims (recordedGateRequest [] [recordedBatch.id])⟩,
          recordedTranscript (recordedSegment 2 "The sea is blue.")] = some config ∧
      DurableClaimGate recordedHost config := by
  obtain ⟨config, executed⟩ := Option.isSome_iff_exists.mp
    (show (exec (step recordedHost) (Config.initial recordedDb)
        [recordedTranscript (recordedSegment 1 "The sky is blue."),
          ⟨20, .claims (recordedGateRequest [recordedBatch] [])⟩,
          ⟨30, .claims (recordedGateRequest [] [recordedBatch.id])⟩,
          recordedTranscript (recordedSegment 2 "The sea is blue.")]).isSome by decide +kernel)
  exact ⟨config, executed, @claimGate_durable recordedHost recordedDb rfl nodup_nil config
    (reaches_of_exec _ (by decide +kernel) executed)⟩

/-- An unprocessed batch that contains some revision of a segment. -/
def ClaimGateTables.Contains (tables : ClaimGateTables) (segmentId : String)
    (batch : ClaimGateBatchRow) : Prop :=
  batch ∈ tables.batches ∧ batch.processedAtMs = none ∧
    ∃ item ∈ tables.batchSegments, item.batchId = batch.id ∧ item.segmentId = segmentId

instance (tables : ClaimGateTables) (segmentId : String) (batch : ClaimGateBatchRow) :
    Decidable (tables.Contains segmentId batch) :=
  inferInstanceAs (Decidable (_ ∧ _ ∧ _))

/-- A newer revision gets a batch of its own while the older one is not
processed, and a request that is delivered again updates the meeting. -/
theorem not_claimGate_durable_superseded :
    ∃ config, Reaches (step recordedHost) anyRequest recordedDb config ∧
      (∃ segment ∈ config.state.transcript.segments, config.state.transcript.isLive segment ∧
        segment.state = .final ∧
        (∃ row ∈ config.state.claimGate.segments, row.key = (segment.meetingId, segment.id) ∧
          row.IsBehind) ∧
        segment.id ∉ listPendingClaimGateSegmentIds config.state segment.meetingId ∧
        ¬∃! batch, config.state.claimGate.Contains segment.id batch) ∧
      recordedGateRequest [laterBatch] [] ∈ succeededClaims config.trace ∧
      (serve recordedHost ⟨50, .claims (recordedGateRequest [laterBatch] [])⟩ config.state).2 ≠
        config.state := by
  obtain ⟨config, reaches, ⟨segment, member, isLive, isFinal, behind, notPending, first, -,
      inFirst, second, -, inSecond, different⟩, succeeded, changed⟩ := exists_reaches_of_exec
    (step recordedHost) anyRequest recordedDb
    (fun config =>
      (∃ segment ∈ config.state.transcript.segments, config.state.transcript.isLive segment ∧
        segment.state = .final ∧
        (∃ row ∈ config.state.claimGate.segments, row.key = (segment.meetingId, segment.id) ∧
          row.IsBehind) ∧
        segment.id ∉ listPendingClaimGateSegmentIds config.state segment.meetingId ∧
        ∃ first ∈ config.state.claimGate.batches, config.state.claimGate.Contains segment.id first ∧
        ∃ second ∈ config.state.claimGate.batches,
          config.state.claimGate.Contains segment.id second ∧ first ≠ second) ∧
      recordedGateRequest [laterBatch] [] ∈ succeededClaims config.trace ∧
      (serve recordedHost ⟨50, .claims (recordedGateRequest [laterBatch] [])⟩ config.state).2 ≠
        config.state)
    [recordedTranscript (recordedSegment 1 "The sky is blue."),
      ⟨20, .claims (recordedGateRequest [recordedBatch] [])⟩,
      recordedTranscript (recordedSegment 2 "The sea is blue."),
      ⟨40, .claims (recordedGateRequest [laterBatch] [])⟩]
    (by decide +kernel) (by decide +kernel)
  refine ⟨config, reaches, ⟨segment, member, isLive, isFinal, behind, notPending, ?_⟩, succeeded,
    changed⟩
  exact fun onlyOne => different (onlyOne.unique inFirst inSecond)

/-- The rows of the batches that a restart reads, in their order. -/
def recoveredItems (db : MeetingsDb) (meetingId : String) : List ClaimGateBatchSegmentRow :=
  (listPendingClaimGateBatches db meetingId).flatMap fun batch =>
    db.claimGate.batchItems batch.id

theorem mem_recoveredItems_iff {db : MeetingsDb} {meetingId : String}
    {item : ClaimGateBatchSegmentRow} : item ∈ recoveredItems db meetingId ↔
      item ∈ db.claimGate.batchSegments ∧ ∃ batch ∈ db.claimGate.batches,
        batch.meetingId = meetingId ∧ batch.processedAtMs = none ∧ item.batchId = batch.id := by
  simp [recoveredItems, listPendingClaimGateBatches, ClaimGateTables.batchItems]
  tauto

/-- A batch that waits is read again with the same turns until it is processed. -/
theorem pendingBatch_kept {before after : MeetingsDb}
    (grows : before.claimGate.Grows after.claimGate)
    (batchIds : (before.claimGate.batches.map ClaimGateBatchRow.id).Nodup) {meetingId : String}
    {batch : MeetingClaimGateBatchDto}
    (waits : batch ∈ listPendingClaimGateBatches before meetingId) :
    after.claimGate.HasCompleted meetingId batch.id ∨
      ∃ kept ∈ listPendingClaimGateBatches after meetingId, kept.id = batch.id ∧
        kept.idempotencyKey = batch.idempotencyKey ∧ kept.turns = batch.turns := by
  simp only [listPendingClaimGateBatches, mem_map, mem_insertionSort, mem_filter, Bool.and_eq_true,
    decide_eq_true_eq] at waits
  obtain ⟨stored, ⟨member, ofMeeting, -⟩, rfl⟩ := waits
  have found := (lookup_eq_some_iff batchIds).mpr ⟨member, rfl⟩
  obtain ⟨kept, foundAfter, meetingKept, keyKept, -⟩ := grows.batches _ stored found
  obtain ⟨isKept, sameId⟩ := lookup_eq_some foundAfter
  have sameMeeting := meetingKept.trans ofMeeting
  by_cases processed : kept.processedAtMs.isSome
  · exact .inl ⟨kept, foundAfter, sameMeeting, processed⟩
  · refine .inr ⟨_, mem_map_of_mem ((mem_insertionSort _).mpr (mem_filter.mpr ⟨isKept, ?_⟩)),
      sameId, keyKept, ?_⟩
    · simpa [sameMeeting] using processed
    · simp only [sameId, grows.items _ stored found]

/-- A restart reads the revisions in flight, each in one turn, and every later
restart reads the same turns until their batch is processed. -/
theorem recovered_inFlight (host : StoreHost) {start : MeetingsDb}
    (empty : start.claimGate = ⟨[], [], []⟩) (distinct : start.transcript.DistinctSegments)
    {config : Config MeetingsDb Answer}
    (reaches : Reaches (step host) anyRequest start config) (meetingId : String) :
    let items := recoveredItems config.state meetingId
    (listPendingClaimGateBatches config.state meetingId).flatMap (·.turns) =
        items.map ClaimGateBatchSegmentRow.turn ∧
      (items.map ClaimGateBatchSegmentRow.revision).Nodup ∧
      (∀ segmentId revision, (segmentId, revision) ∈ items.map ClaimGateBatchSegmentRow.revision ↔
        ∃ batch, batch.meetingId = meetingId ∧
          config.state.claimGate.InFlight segmentId revision batch) ∧
      ∀ later, Reaches (step host) anyRequest config.state later →
        ∀ batch ∈ listPendingClaimGateBatches config.state meetingId,
          later.state.claimGate.HasCompleted meetingId batch.id ∨
            ∃ kept ∈ listPendingClaimGateBatches later.state meetingId, kept.id = batch.id ∧
              kept.idempotencyKey = batch.idempotencyKey ∧ kept.turns = batch.turns := by
  have invariant := gateInvariant_of_reaches empty distinct reaches
  have consistent := invariant.consistent
  have ids : ((listPendingClaimGateBatches config.state meetingId).map (·.id)).Nodup := by
    rw [listPendingClaimGateBatches, map_map]
    exact ((perm_insertionSort _ _).map _).nodup_iff.mpr
      (consistent.batchIds.sublist (filter_sublist.map _))
  refine ⟨?_, .map_on ?_ (nodup_flatMap.mpr ⟨fun batch _ => ?_, ?_⟩), fun segmentId revision => ?_,
    fun later reachesLater batch => pendingBatch_kept (grows_of_reaches invariant reachesLater)
      consistent.batchIds⟩
  · simp [listPendingClaimGateBatches, recoveredItems, flatMap_map, map_flatMap]
  · intro first isFirst second isSecond
    exact inj_on_of_nodup_map consistent.revisions (mem_recoveredItems_iff.mp isFirst).1
      (mem_recoveredItems_iff.mp isSecond).1
  · exact (perm_insertionSort _ _).nodup_iff.mpr (consistent.revisions.of_map.filter _)
  · refine (pairwise_map.mp ids).imp fun differ item inFirst inSecond => differ ?_
    simp only [ClaimGateTables.batchItems, mem_insertionSort, mem_filter,
      decide_eq_true_eq] at inFirst inSecond
    exact inFirst.2.symm.trans inSecond.2
  · simp only [mem_map, mem_recoveredItems_iff]
    constructor
    · rintro ⟨item, ⟨member, batch, isBatch, ofMeeting, waits, inBatch⟩, isRevision⟩
      exact ⟨batch, ofMeeting, isBatch, waits, item, member, inBatch, isRevision⟩
    · rintro ⟨batch, ofMeeting, isBatch, waits, item, member, inBatch, isRevision⟩
      exact ⟨item, ⟨member, batch, isBatch, ofMeeting, waits, inBatch⟩, isRevision⟩

/-- Two revisions of a segment wait in two batches. -/
theorem recovered_inFlight_recorded : ∃ config, exec (step recordedHost)
        (Config.initial recordedDb)
        [recordedTranscript (recordedSegment 1 "The sky is blue."),
          ⟨20, .claims (recordedGateRequest [recordedBatch] [])⟩,
          recordedTranscript (recordedSegment 2 "The sea is blue."),
          ⟨40, .claims (recordedGateRequest [laterBatch] [])⟩] = some config ∧
      (recoveredItems config.state recordedMeetingId).map ClaimGateBatchSegmentRow.revision =
        [(recordedSegmentId, 1), (recordedSegmentId, 2)] ∧
      (∃ batch, batch.meetingId = recordedMeetingId ∧
        config.state.claimGate.InFlight recordedSegmentId 2 batch) ∧
      ∀ later, Reaches (step recordedHost) anyRequest config.state later →
        ∀ batch ∈ listPendingClaimGateBatches config.state recordedMeetingId,
          ¬later.state.claimGate.HasCompleted recordedMeetingId batch.id →
            ∃ kept ∈ listPendingClaimGateBatches later.state recordedMeetingId,
              kept.turns = batch.turns := by
  obtain ⟨config, executed, revisions⟩ : ∃ config ∈ exec (step recordedHost)
        (Config.initial recordedDb)
        [recordedTranscript (recordedSegment 1 "The sky is blue."),
          ⟨20, .claims (recordedGateRequest [recordedBatch] [])⟩,
          recordedTranscript (recordedSegment 2 "The sea is blue."),
          ⟨40, .claims (recordedGateRequest [laterBatch] [])⟩],
      (recoveredItems config.state recordedMeetingId).map ClaimGateBatchSegmentRow.revision =
        [(recordedSegmentId, 1), (recordedSegmentId, 2)] := by
    decide +kernel
  obtain ⟨-, -, inFlight, stable⟩ := @recovered_inFlight recordedHost recordedDb rfl nodup_nil
    config (reaches_of_exec _ (by decide +kernel) executed) recordedMeetingId
  refine ⟨config, executed, revisions, (inFlight _ _).mp (by simp [revisions]), ?_⟩
  intro later reaches batch pending notCompleted
  obtain ⟨kept, isKept, -, -, turns⟩ :=
    (stable later reaches batch pending).resolve_left notCompleted
  exact ⟨kept, isKept, turns⟩

end Obelus.Meetings
