import Obelus.Meetings.Transcript

/-!
# The effect of a transcript request

A successful upsert of a segment keeps the tables when the stored revision is
not older, and writes the row of the segment and its replacements otherwise.
The rest of a transcript request leaves segments and replacements alone.
-/

namespace Obelus.Meetings

open Obelus.Data
open List hiding lookup

/-- The primary key of the segment table. -/
def TranscriptTables.DistinctSegments (tables : TranscriptTables) : Prop :=
  (tables.segments.map TranscriptSegmentRow.id).Nodup

/-- The live segments that a refined segment replaces. -/
def TranscriptTables.replacedBy (tables : TranscriptTables) (id : String) : List String :=
  (tables.replacements.filter fun row => row.refinedSegmentId = id).map
    SegmentReplacementRow.liveSegmentId

/-- A row has the content of a submission, whenever it was written. -/
def TranscriptSegmentRow.HasContent (host : StoreHost) (meetingId : String)
    (value : MeetingTranscriptSegmentUpsertDto) (row : TranscriptSegmentRow) : Prop :=
  row = { TranscriptSegmentRow.ofUpsert host meetingId value row.updatedAtMs with
    createdAtMs := row.createdAtMs }

namespace TranscriptSegmentRow

variable {host : StoreHost} {meetingId : String} {value : MeetingTranscriptSegmentUpsertDto}
  {now : Int} {row stored : TranscriptSegmentRow}

theorem HasContent.revisionNumber_eq (content : row.HasContent host meetingId value) :
    row.revisionNumber = asI64 value.revisionNumber :=
  congrArg TranscriptSegmentRow.revisionNumber content

theorem hasContent_ofUpsert : (ofUpsert host meetingId value now).HasContent host meetingId value :=
  rfl

theorem id_merge (excluded : TranscriptSegmentRow) : (merge excluded stored).id = stored.id := by
  unfold merge
  split <;> rfl

theorem identity_merge (excluded : TranscriptSegmentRow) :
    (merge excluded stored).identity = stored.identity := by
  unfold merge
  split <;> rfl

/-- A newer submission under the same identity replaces the whole content. -/
theorem hasContent_merge (sameId : stored.id = value.id)
    (sameIdentity : stored.identity = value.identity meetingId)
    (newer : stored.revisionNumber < asI64 value.revisionNumber) :
    (merge (ofUpsert host meetingId value now) stored).HasContent host meetingId value := by
  obtain ⟨sameMeeting, sameVersion, sameProvider, sameNamespace, sameTurn⟩ :=
    SegmentIdentity.mk.injEq .. ▸ sameIdentity
  unfold merge
  rw [if_pos (show (ofUpsert host meetingId value now).revisionNumber > stored.revisionNumber
    from newer)]
  simp only [HasContent, ofUpsert, sameId, sameMeeting, sameVersion, sameProvider, sameNamespace,
    sameTurn]

end TranscriptSegmentRow

variable {meetingId : String} {before after : TranscriptTables} {now : Int}
  {speakers : List SpeakerRow} {host : StoreHost}

theorem foldlM_insertReplacement {refinedSegmentId : String} {replacedIds : List String}
    (inserted : replacedIds.foldlM (insertReplacement meetingId refinedSegmentId) before =
      .ok after) : after = { before with
      replacements := before.replacements ++
        replacedIds.map (SegmentReplacementRow.mk refinedSegmentId) } := by
  induction replacedIds generalizing before with
  | nil =>
    rw [foldlM_nil, pure_eq_ok_iff] at inserted
    simp [inserted]
  | cons replacedId rest ih =>
    rw [foldlM_cons, bind_eq_ok_iff] at inserted
    obtain ⟨next, first, others⟩ := inserted
    simp only [insertReplacement, bind_eq_ok_iff, pure_eq_ok_iff] at first
    obtain ⟨-, -, -, -, rfl⟩ := first
    rw [ih others]
    simp

section Upsert

variable {host : StoreHost} {now : Int} {meetingId : String} {speakers : List SpeakerRow}
  {value : MeetingTranscriptSegmentUpsertDto} {before after : TranscriptTables}

theorem writeSegment_eq_ok
    (written : writeSegment host now meetingId speakers value before = .ok after) :
    0 ≤ asI64 value.revisionNumber ∧
      after = { before with
        segments := upsertRow TranscriptSegmentRow.id TranscriptSegmentRow.merge before.segments
          (TranscriptSegmentRow.ofUpsert host meetingId value now)
        replacements := (before.replacements.filter fun row => row.refinedSegmentId ≠ value.id) ++
          value.replacedLiveSegmentIds.map (SegmentReplacementRow.mk value.id) } := by
  simp only [writeSegment, bind_eq_ok_iff, ensure_eq_ok_iff] at written
  obtain ⟨-, -, -, inRange, replaced⟩ := written
  exact ⟨inRange, foldlM_insertReplacement replaced⟩

/-- What a successful upsert did. -/
inductive SegmentUpserted (host : StoreHost) (now : Int) (meetingId : String)
    (speakers : List SpeakerRow) (value : MeetingTranscriptSegmentUpsertDto)
    (before : TranscriptTables) : MeetingUpsertOutcomeKind → TranscriptTables → Prop
  | kept {outcome : MeetingUpsertOutcomeKind} {stored : TranscriptSegmentRow}
      (present : before.segment value.id = some stored)
      (identity : stored.identity = value.identity meetingId)
      (notOlder : asI64 value.revisionNumber ≤ stored.revisionNumber)
      (reported : outcome = .duplicate ∨ outcome = .staleIgnored) :
      SegmentUpserted host now meetingId speakers value before outcome before
  | written {outcome : MeetingUpsertOutcomeKind} {after : TranscriptTables}
      (older : ∀ stored ∈ before.segment value.id,
        stored.identity = value.identity meetingId ∧
          stored.revisionNumber < asI64 value.revisionNumber)
      (success : writeSegment host now meetingId speakers value before = .ok after)
      (reported : outcome = .inserted ∨ outcome = .revised) :
      SegmentUpserted host now meetingId speakers value before outcome after

/-- The row under the identity of a submission is the row under its key. -/
theorem upsertTranscriptSegment_eq_ok {outcome : MeetingUpsertOutcomeKind}
    (upserted : upsertTranscriptSegment host now meetingId speakers value before =
      .ok (outcome, after)) :
    SegmentUpserted host now meetingId speakers value before outcome after := by
  simp only [upsertTranscriptSegment, bind_eq_ok_iff, ensure_eq_ok_iff] at upserted
  obtain ⟨-, sameIdentity, -, sameId, upserted⟩ := upserted
  cases found : lookup TranscriptSegmentRow.identity before.segments (value.identity meetingId) with
  | none =>
    simp only [found, bind_eq_ok_iff] at upserted
    obtain ⟨_, success, rfl, rfl⟩ := upserted
    refine .written (fun stored present => absurd ?_ (lookup_eq_none_iff.mp found)) success
      (.inl rfl)
    rw [← sameIdentity stored present]
    exact mem_map_of_mem (lookup_eq_some present).1
  | some previous =>
    obtain ⟨member, previousIdentity⟩ := lookup_eq_some found
    have present : before.segment value.id = some previous := by
      obtain ⟨stored, isStored⟩ := @exists_lookup_of_mem _ _ _ TranscriptSegmentRow.id _ _ member
      rw [sameId previous found] at isStored
      have sameRow : stored = previous := eq_of_find?_of_find? isStored found
        (decide_eq_true (sameIdentity stored isStored)) (decide_eq_true (sameId previous found))
      rw [← sameRow]
      exact isStored
    simp only [found] at upserted
    split at upserted
    · rename_i notOlder
      rw [pure_eq_ok_iff, Prod.mk.injEq] at upserted
      obtain ⟨reported, rfl⟩ := upserted
      refine .kept present previousIdentity notOlder ?_
      split at reported
      · exact .inl reported.symm
      · exact .inr reported.symm
    · simp only [bind_eq_ok_iff] at upserted
      obtain ⟨_, success, rfl, rfl⟩ := upserted
      refine .written (fun stored isStored => ?_) success (.inr rfl)
      obtain rfl : previous = stored := Option.some_inj.mp (present.symm.trans isStored)
      exact ⟨previousIdentity, by omega⟩

namespace SegmentUpserted

variable {outcome : MeetingUpsertOutcomeKind}
  (upserted : SegmentUpserted host now meetingId speakers value before outcome after)

include upserted

theorem distinctSegments (distinct : before.DistinctSegments) : after.DistinctSegments := by
  cases upserted with
  | kept => exact distinct
  | written older success =>
    rw [(writeSegment_eq_ok success).2]
    exact nodup_map_upsertRow (fun _ => TranscriptSegmentRow.id_merge _) distinct

theorem segment_of_ne {id : String} (other : id ≠ value.id) :
    after.segment id = before.segment id := by
  cases upserted with
  | kept => rfl
  | written older success =>
    rw [(writeSegment_eq_ok success).2, TranscriptTables.segment,
      lookup_upsertRow fun _ => TranscriptSegmentRow.id_merge _]
    exact if_neg other

theorem replacedBy_of_ne {id : String} (other : id ≠ value.id) :
    after.replacedBy id = before.replacedBy id := by
  cases upserted with
  | kept => rfl
  | written older success =>
    rw [(writeSegment_eq_ok success).2]
    simp only [TranscriptTables.replacedBy, filter_append, filter_filter, filter_map, map_append]
    have none_added : (value.replacedLiveSegmentIds.filter
        ((fun row : SegmentReplacementRow => decide (row.refinedSegmentId = id)) ∘
          SegmentReplacementRow.mk value.id)) = [] :=
      filter_eq_nil_iff.mpr fun _ _ => by simp [Ne.symm other]
    rw [none_added, map_nil, map_nil, append_nil]
    congr 1
    refine filter_congr fun row _ => ?_
    by_cases isRow : row.refinedSegmentId = id
    · simp [isRow, other]
    · simp [isRow]

/-- After an upsert that writes, the row of the segment has the content of the
submission. -/
theorem segment_of_written
    (older : ∀ stored ∈ before.segment value.id,
      stored.revisionNumber < asI64 value.revisionNumber) :
    (∃ row, after.segment value.id = some row ∧ row.HasContent host meetingId value) ∧
      after.replacedBy value.id = value.replacedLiveSegmentIds := by
  cases upserted with
  | kept present identity notOlder =>
    exact absurd notOlder (not_le.mpr (older _ present))
  | written identities success =>
    rw [(writeSegment_eq_ok success).2]
    constructor
    · rw [TranscriptTables.segment, lookup_upsertRow fun _ => TranscriptSegmentRow.id_merge _]
      refine ⟨_, if_pos rfl, ?_⟩
      change TranscriptSegmentRow.HasContent host meetingId value
        ((before.segment value.id).elim _ _)
      cases present : before.segment value.id with
      | none => exact TranscriptSegmentRow.hasContent_ofUpsert
      | some stored =>
        obtain ⟨identity, newer⟩ := identities stored present
        exact TranscriptSegmentRow.hasContent_merge (lookup_eq_some present).2 identity newer
    · simp only [TranscriptTables.replacedBy, filter_append, filter_map]
      simp [Function.comp_def]

/-- After an upsert the segment is stored, and belongs to the meeting. -/
theorem segment_meetingId :
    ∃ row, after.segment value.id = some row ∧ row.meetingId = meetingId := by
  cases upserted with
  | kept present identity => exact ⟨_, present, congrArg SegmentIdentity.meetingId identity⟩
  | written older success reported =>
    obtain ⟨⟨row, present, content⟩, -⟩ := segment_of_written
      (.written older success reported) fun stored isStored => (older stored isStored).2
    exact ⟨row, present, congrArg TranscriptSegmentRow.meetingId content⟩

/-- A segment never changes its meeting. -/
theorem segment_kept {id : String} {segment : TranscriptSegmentRow}
    (found : before.segment id = some segment) :
    ∃ row, after.segment id = some row ∧ row.meetingId = segment.meetingId := by
  by_cases isSegment : id = value.id
  · subst isSegment
    obtain ⟨row, present, sameMeeting⟩ := upserted.segment_meetingId
    refine ⟨row, present, sameMeeting.trans ?_⟩
    cases upserted with
    | kept stored identity =>
      obtain rfl := Option.some.inj (found.symm.trans stored)
      exact (congrArg SegmentIdentity.meetingId identity).symm
    | written older => exact (congrArg SegmentIdentity.meetingId (older segment found).1).symm
  · exact ⟨segment, (upserted.segment_of_ne isSegment).trans found, rfl⟩

/-- A submission that is not newer changes nothing. -/
theorem eq_of_stored {stored : TranscriptSegmentRow}
    (present : before.segment value.id = some stored)
    (notOlder : asI64 value.revisionNumber ≤ stored.revisionNumber) : after = before := by
  cases upserted with
  | kept => rfl
  | written older success => exact absurd (older stored present).2 (not_lt.mpr notOlder)

end SegmentUpserted

end Upsert

theorem upsertTranscriptVersion_eq_ok {value : MeetingTranscriptVersionUpsertDto}
    (upserted : upsertTranscriptVersion now meetingId value before = .ok after) :
    after = { before with
      versions := upsertRow TranscriptVersionRow.id TranscriptVersionRow.merge before.versions
        (TranscriptVersionRow.ofUpsert meetingId value now) } := by
  simp only [upsertTranscriptVersion, bind_eq_ok_iff, pure_eq_ok_iff] at upserted
  obtain ⟨-, -, -, -, rfl⟩ := upserted
  rfl

theorem upsertSpeakerObservation_eq_ok {value : MeetingSpeakerObservationUpsertDto}
    (upserted : upsertSpeakerObservation now meetingId speakers before value = .ok after) :
    after = { before with observations := after.observations } := by
  simp only [upsertSpeakerObservation, bind_eq_ok_iff, pure_eq_ok_iff] at upserted
  obtain ⟨-, -, -, -, -, -, -, -, rfl⟩ := upserted
  rfl

/-- The meetings that are not deleted stay the same. -/
def MeetingsDb.KeepsMeetings (before after : MeetingsDb) : Prop :=
  after.meetings.map (fun meeting => (meeting.id, meeting.deletedAtMs)) =
    before.meetings.map fun meeting => (meeting.id, meeting.deletedAtMs)

theorem getMeeting_of_keepsMeetings {before after : MeetingsDb} (kept : before.KeepsMeetings after)
    : getMeeting after meetingId = getMeeting before meetingId := by
  have mem_iff (db : MeetingsDb) : (∃ meeting ∈ db.meetings, meeting.id = meetingId ∧
      meeting.deletedAtMs = none) ↔
      (meetingId, none) ∈ db.meetings.map fun meeting => (meeting.id, meeting.deletedAtMs) := by
    simp
  rw [MeetingsDb.KeepsMeetings] at kept
  unfold getMeeting
  simp only [mem_iff, kept]

/-- What a successful transcript request did. -/
structure TranscriptApplied (host : StoreHost) (now : Int)
    (request : MeetingTranscriptApplyRequest) (before after : MeetingsDb)
    (versioned : TranscriptTables) (progress : SegmentProgress) : Prop where
  valid : validateTranscriptRequest host request = .ok ⟨⟩
  meeting : getMeeting before request.meetingId = .ok ⟨⟩
  version : upsertTranscriptVersion now request.meetingId request.version before.transcript =
    .ok versioned
  segments : request.segments.foldlM
    (applySegment host now request.meetingId request.version.kind before.speakers)
    { transcript := versioned, claimGate := before.claimGate, outcomes := [] } = .ok progress
  transcript : after.transcript =
    { progress.transcript with observations := after.transcript.observations }
  claimGate : after.claimGate = progress.claimGate
  claims : after.claims = before.claims
  speakers : after.speakers = before.speakers
  meetings : before.KeepsMeetings after

theorem MeetingsDb.keepsMeetings_promote (db : MeetingsDb) (meetingId versionId : String)
    (now : Int) : db.KeepsMeetings (db.promote meetingId versionId now) := by
  exact map_updateWhere fun _ => rfl

theorem applyTranscriptChanges_eq_ok {request : MeetingTranscriptApplyRequest}
    {before after : MeetingsDb} {outcomes : List MeetingUpsertOutcomeDto}
    (applied : applyTranscriptChanges host now request before = .ok (outcomes, after)) :
    ∃ versioned progress,
      TranscriptApplied host now request before after versioned progress := by
  simp only [applyTranscriptChanges, bind_eq_ok_iff] at applied
  obtain ⟨_, valid, _, meeting, versioned, version, progress, segments, observed, observations,
    finished⟩ := applied
  have transcript : observed = { progress.transcript with observations := observed.observations } :=
    foldlM_invariant (fun tables : TranscriptTables =>
        tables = { progress.transcript with observations := tables.observations })
      (fun _ _ _ _ stepped related => by
        rw [upsertSpeakerObservation_eq_ok stepped, related])
      observations rfl
  refine ⟨versioned, progress, ?_⟩
  split at finished
  · simp only [bind_eq_ok_iff] at finished
    obtain ⟨-, -, -, rfl⟩ := finished
    exact ⟨valid, meeting, version, segments, transcript, rfl, rfl, rfl,
      MeetingsDb.keepsMeetings_promote _ _ _ _⟩
  · obtain ⟨-, rfl⟩ := finished
    exact ⟨valid, meeting, version, segments, transcript, rfl, rfl, rfl, rfl⟩

/-- What a successful body of the loop over the segments did. -/
theorem applySegment_eq_ok {kind : MeetingTranscriptVersionKind} {before after : SegmentProgress}
    {segment : MeetingTranscriptSegmentUpsertDto}
    (applied : applySegment host now meetingId kind speakers before segment = .ok after) :
    ∃ outcome, SegmentUpserted host now meetingId speakers segment before.transcript outcome
        after.transcript ∧
      if queuesForClaimGate kind segment.state outcome then
        enqueueClaimGateSegment meetingId segment.id segment.revisionNumber now
          before.claimGate = .ok after.claimGate
      else after.claimGate = before.claimGate := by
  simp only [applySegment, bind_eq_ok_iff] at applied
  obtain ⟨⟨outcome, transcript⟩, upserted, applied⟩ := applied
  refine ⟨outcome, ?_⟩
  split at applied
  · rename_i queues
    simp only [bind_eq_ok_iff, pure_eq_ok_iff] at applied
    obtain ⟨claimGate, queued, rfl⟩ := applied
    exact ⟨upsertTranscriptSegment_eq_ok upserted, by rwa [if_pos queues]⟩
  · rename_i keeps
    obtain ⟨claimGate, rfl, rfl⟩ := applied
    exact ⟨upsertTranscriptSegment_eq_ok upserted, by rw [if_neg keeps]⟩

/-!
## The errors of a transcript request

A request that is valid, whose references are stored and whose numbers fit the
columns fails only with a conflict: its version or one of its segments or
observations has another identity than the stored row.
-/

open Validation

/-- A live segment of a meeting, which a refined segment may replace. -/
def TranscriptTables.HasLive (tables : TranscriptTables) (meetingId id : String) : Prop :=
  ∃ segment ∈ tables.segments, segment.id = id ∧ segment.meetingId = meetingId ∧
    tables.isLive segment

/-- A request that is valid, refers to stored rows only and fits the columns. -/
structure TranscriptRequestFits (host : StoreHost) (now : Int)
    (request : MeetingTranscriptApplyRequest) (db : MeetingsDb) : Prop where
  valid : validateTranscriptRequest host request = .ok ⟨⟩
  meeting : getMeeting db request.meetingId = .ok ⟨⟩
  version : versionConstraints db.transcript
    (TranscriptVersionRow.ofUpsert request.meetingId request.version now)
  segmentSpeakers : ∀ segment ∈ request.segments,
    whenPresent (ensureSpeaker db.speakers request.meetingId) segment.speakerId = .ok ⟨⟩
  segmentRevisions : ∀ segment ∈ request.segments, 0 ≤ asI64 segment.revisionNumber
  replaced : ∀ segment ∈ request.segments, segment.replacedLiveSegmentIds.Nodup ∧
    ∀ id ∈ segment.replacedLiveSegmentIds, db.transcript.HasLive request.meetingId id
  observationSpeakers : ∀ observation ∈ request.speakerObservations,
    whenPresent (ensureSpeaker db.speakers request.meetingId) observation.speakerId = .ok ⟨⟩
  observationRevisions : ∀ observation ∈ request.speakerObservations,
    0 ≤ asI64 observation.revisionNumber
  promoted : request.promoteCanonical → request.version.status = .complete

theorem TranscriptVersionRow.id_merge (excluded stored : TranscriptVersionRow) :
    (merge excluded stored).id = stored.id :=
  rfl

variable {now : Int} {meetingId wantedMeeting : String} {value : MeetingTranscriptVersionUpsertDto}
  {before after : TranscriptTables} {host : StoreHost} {speakers : List SpeakerRow}
  {failure : MeetingStoreError}

theorem TranscriptTables.HasLive.versionUpserted {id : String}
    (live : before.HasLive wantedMeeting id)
    (upserted : upsertTranscriptVersion now meetingId value before = .ok after) :
    after.HasLive wantedMeeting id := by
  obtain ⟨segment, member, sameId, sameMeeting, isLive⟩ := live
  rw [upsertTranscriptVersion_eq_ok upserted]
  refine ⟨segment, member, sameId, sameMeeting, ?_⟩
  unfold TranscriptTables.isLive TranscriptTables.version at isLive ⊢
  rw [lookup_upsertRow fun stored => TranscriptVersionRow.id_merge _ stored]
  split
  · rename_i isUpserted
    rw [isUpserted] at isLive
    cases found : lookup TranscriptVersionRow.id before.versions
        (TranscriptVersionRow.ofUpsert meetingId value now).id with
    | none => simp [found] at isLive
    | some stored =>
      rw [found] at isLive
      exact isLive
  · exact isLive

theorem TranscriptTables.HasLive.rowUpserted {id : String} (live : before.HasLive wantedMeeting id)
    (row : TranscriptSegmentRow) (replacements : List SegmentReplacementRow) : { before with
      segments := upsertRow TranscriptSegmentRow.id TranscriptSegmentRow.merge before.segments row
      replacements }.HasLive wantedMeeting id := by
  obtain ⟨segment, member, sameId, sameMeeting, isLive⟩ := live
  obtain kept | merged := mem_upsertRow_of_mem TranscriptSegmentRow.id TranscriptSegmentRow.merge
    row member
  · exact ⟨segment, kept, sameId, sameMeeting, isLive⟩
  · have identity : (row.merge segment).identity = segment.identity :=
      TranscriptSegmentRow.identity_merge row
    have meeting := congrArg SegmentIdentity.meetingId identity
    have version : (row.merge segment).transcriptVersionId = segment.transcriptVersionId :=
      congrArg SegmentIdentity.transcriptVersionId identity
    refine ⟨_, merged, (TranscriptSegmentRow.id_merge _).trans sameId,
      meeting.trans sameMeeting, ?_⟩
    unfold TranscriptTables.isLive at isLive ⊢
    rw [version]
    exact isLive

theorem TranscriptTables.HasLive.segmentUpserted {id : String}
    {value : MeetingTranscriptSegmentUpsertDto} {outcome : MeetingUpsertOutcomeKind}
    (live : before.HasLive wantedMeeting id)
    (upserted : SegmentUpserted host now meetingId speakers value before outcome after) :
    after.HasLive wantedMeeting id := by
  cases upserted with
  | kept => exact live
  | written older success =>
    rw [(writeSegment_eq_ok success).2]
    exact live.rowUpserted _ _

theorem exists_foldlM_insertReplacement (refinedSegmentId : String) {replacedIds : List String}
    {tables : TranscriptTables} (nodup : replacedIds.Nodup)
    (live : ∀ id ∈ replacedIds, tables.HasLive meetingId id)
    (free : ∀ id ∈ replacedIds, ⟨refinedSegmentId, id⟩ ∉ tables.replacements) :
    ∃ after, replacedIds.foldlM (insertReplacement meetingId refinedSegmentId) tables =
      .ok after := by
  induction replacedIds generalizing tables with
  | nil => exact ⟨tables, rfl⟩
  | cons replacedId rest ih =>
    obtain ⟨notRepeated, nodupRest⟩ := nodup_cons.mp nodup
    have inserted : insertReplacement meetingId refinedSegmentId tables replacedId =
        .ok { tables with
          replacements := tables.replacements ++ [⟨refinedSegmentId, replacedId⟩] } := by
      simp only [insertReplacement, bind_eq_ok_iff, ensure_eq_ok_iff, pure_eq_ok_iff]
      exact ⟨⟨⟩, live _ mem_cons_self, ⟨⟩, free _ mem_cons_self, trivial⟩
    rw [foldlM_cons, inserted]
    refine ih nodupRest (fun id member => live id (mem_cons_of_mem _ member))
      fun id member isReplaced => ?_
    obtain isReplaced | isNew := mem_append.mp isReplaced
    · exact free id (mem_cons_of_mem _ member) isReplaced
    · simp only [mem_singleton, SegmentReplacementRow.mk.injEq, true_and] at isNew
      exact notRepeated (isNew ▸ member)

section Upsert

variable {host : StoreHost} {now : Int} {meetingId : String} {speakers : List SpeakerRow}
  {value : MeetingTranscriptSegmentUpsertDto} {before : TranscriptTables}
  (speaker : whenPresent (ensureSpeaker speakers meetingId) value.speakerId = .ok ⟨⟩)
  (inRange : 0 ≤ asI64 value.revisionNumber)
  (nodup : value.replacedLiveSegmentIds.Nodup)
  (live : ∀ id ∈ value.replacedLiveSegmentIds, before.HasLive meetingId id)

include speaker inRange nodup live

theorem exists_writeSegment :
    ∃ after, writeSegment host now meetingId speakers value before = .ok after := by
  obtain ⟨after, replaced⟩ := exists_foldlM_insertReplacement value.id nodup
    (fun id member => (live id member).rowUpserted
      (TranscriptSegmentRow.ofUpsert host meetingId value now)
      (before.replacements.filter fun row => row.refinedSegmentId ≠ value.id))
    (by simp)
  simp only [writeSegment, bind_eq_ok_iff, ensure_eq_ok_iff]
  exact ⟨after, ⟨⟩, speaker, ⟨⟩, inRange, replaced⟩

theorem upsertTranscriptSegment_eq_error {failure : MeetingStoreError}
    (failed : upsertTranscriptSegment host now meetingId speakers value before =
      .error failure) : failure = .conflict := by
  obtain ⟨written, success⟩ : ∃ after,
      writeSegment host now meetingId speakers value before = .ok after :=
    exists_writeSegment speaker inRange nodup live
  simp only [upsertTranscriptSegment, bind_eq_error_iff, ensure_eq_error_iff] at failed
  obtain ⟨-, rfl⟩ | ⟨-, -, ⟨-, rfl⟩ | ⟨-, -, failed⟩⟩ := failed
  · rfl
  · rfl
  · split at failed
    · simp [success] at failed
    · split at failed
      · exact absurd failed pure_ne_error
      · simp [success] at failed

end Upsert

theorem upsertSpeakerObservation_eq_error {value : MeetingSpeakerObservationUpsertDto}
    (speaker : whenPresent (ensureSpeaker speakers meetingId) value.speakerId = .ok ⟨⟩)
    (inRange : 0 ≤ asI64 value.revisionNumber)
    (failed : upsertSpeakerObservation now meetingId speakers before value = .error failure) :
    failure = .conflict := by
  simp only [upsertSpeakerObservation, bind_eq_error_iff, ensure_eq_error_iff, speaker] at failed
  obtain failed | ⟨-, -, ⟨-, rfl⟩ | ⟨-, -, ⟨-, rfl⟩ | ⟨-, -, ⟨outOfRange, -⟩ | failed⟩⟩⟩ := failed
  · cases failed
  · rfl
  · rfl
  · exact absurd inRange outOfRange
  · simp at failed

theorem upsertTranscriptVersion_eq_error (constraints : versionConstraints before
      (TranscriptVersionRow.ofUpsert meetingId value now))
    (failed : upsertTranscriptVersion now meetingId value before = .error failure) :
    failure = .conflict := by
  simp only [upsertTranscriptVersion, bind_eq_error_iff, ensure_eq_error_iff] at failed
  obtain ⟨-, rfl⟩ | ⟨-, -, ⟨violated, -⟩ | ⟨-, -, failed⟩⟩ := failed
  · rfl
  · exact absurd constraints violated
  · exact absurd failed pure_ne_error

theorem applySegment_eq_error {kind : MeetingTranscriptVersionKind} {progress : SegmentProgress}
    {segment : MeetingTranscriptSegmentUpsertDto}
    (speaker : whenPresent (ensureSpeaker speakers meetingId) segment.speakerId = .ok ⟨⟩)
    (inRange : 0 ≤ asI64 segment.revisionNumber) (nodup : segment.replacedLiveSegmentIds.Nodup)
    (live : ∀ id ∈ segment.replacedLiveSegmentIds, progress.transcript.HasLive meetingId id)
    (failed : applySegment host now meetingId kind speakers progress segment = .error failure) :
    failure = .conflict := by
  simp only [applySegment, bind_eq_error_iff] at failed
  obtain failed | ⟨_, -, failed⟩ := failed
  · exact upsertTranscriptSegment_eq_error speaker inRange nodup live failed
  · split at failed
    · simp only [enqueueClaimGateSegment, bind_eq_error_iff, ensure_eq_error_iff, inRange,
        not_true, false_and, pure_ne_error, and_false, exists_false, or_false] at failed
    · simp only [bind_eq_error_iff, pure_ne_error, and_false, exists_false, or_false] at failed

/-- A request that fits the store succeeds or is in conflict with it. -/
theorem TranscriptRequestFits.eq_conflict {request : MeetingTranscriptApplyRequest}
    {db : MeetingsDb} (fits : TranscriptRequestFits host now request db)
    (distinct : db.transcript.DistinctSegments)
    (failed : applyTranscriptChanges host now request db = .error failure) :
    failure = .conflict := by
  simp only [applyTranscriptChanges, fits.valid, fits.meeting, bind_eq_error_iff] at failed
  obtain failed | ⟨-, -, failed | ⟨-, -, failed | ⟨versioned, version, failed⟩⟩⟩ := failed
  · cases failed
  · cases failed
  · exact upsertTranscriptVersion_eq_error fits.version failed
  · have versioned_eq := upsertTranscriptVersion_eq_ok version
    have stepped : ∀ segment ∈ request.segments, ∀ before after : SegmentProgress,
        applySegment host now request.meetingId request.version.kind db.speakers before segment =
          .ok after →
        before.transcript.DistinctSegments ∧ (∀ meetingId id, db.transcript.HasLive meetingId id →
          before.transcript.HasLive meetingId id) →
        after.transcript.DistinctSegments ∧ (∀ meetingId id, db.transcript.HasLive meetingId id →
          after.transcript.HasLive meetingId id) := by
      rintro segment - before after applied ⟨distinct, live⟩
      obtain ⟨_, upserted, -⟩ := applySegment_eq_ok applied
      exact ⟨upserted.distinctSegments distinct,
        fun meetingId id stored => (live meetingId id stored).segmentUpserted upserted⟩
    obtain failed | ⟨progress, -, failed⟩ := failed
    · obtain ⟨segment, member, state, ⟨-, live⟩, failed⟩ := foldlM_eq_error _ stepped failed
        ⟨by rw [versioned_eq]; exact distinct,
          fun meetingId id stored => stored.versionUpserted version⟩
      obtain ⟨nodup, replaced⟩ := fits.replaced segment member
      exact applySegment_eq_error (fits.segmentSpeakers segment member)
        (fits.segmentRevisions segment member) nodup
        (fun id isReplaced => live _ id (replaced id isReplaced)) failed
    · obtain failed | ⟨_, -, failed⟩ := failed
      · obtain ⟨observation, member, _, -, failed⟩ :=
          foldlM_eq_error (fun _ => True) (fun _ _ _ _ _ => id) failed trivial
        exact upsertSpeakerObservation_eq_error (fits.observationSpeakers observation member)
          (fits.observationRevisions observation member) failed
      · split at failed
        · rename_i promotes
          simp only [invalid, bind_eq_error_iff, fits.promoted promotes]
            at failed
          simp at failed
        · exact absurd failed pure_ne_error

end Obelus.Meetings
