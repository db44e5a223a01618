import Obelus.Meetings.Tables

/-!
# Transcript requests

`apply_transcript` upserts a transcript version, its segments and its speaker
observations in one transaction, and queues the final segments of a live
version for the claim gate.  A statement that breaks a constraint of its table
fails with a database error; the clock is read once for a request.
-/

namespace Obelus.Meetings

open Obelus.Data
open Validation

def TranscriptVersionRow.ofUpsert (meetingId : String)
    (value : MeetingTranscriptVersionUpsertDto) (now : Int) : TranscriptVersionRow where
  id := value.id
  meetingId
  kind := value.kind
  status := value.status
  revisionNumber := asI64 value.revisionNumber
  provider := value.provider
  model := value.model
  gatewayJobId := value.gatewayJobId
  parentVersionId := value.parentVersionId
  inputAudioChecksum := value.inputAudioChecksum
  detectedLanguage := value.detectedLanguage
  reconciliationMetadataJson := value.reconciliationMetadata.map Json.tokens
  startedAtMs := value.startedAtMs
  completedAtMs := value.completedAtMs
  error := value.error
  createdAtMs := now
  updatedAtMs := now

/-- `ON CONFLICT(id) DO UPDATE SET …` of a version. -/
def TranscriptVersionRow.merge (excluded stored : TranscriptVersionRow) : TranscriptVersionRow :=
  { stored with
    status := excluded.status
    provider := excluded.provider
    model := excluded.model
    gatewayJobId := excluded.gatewayJobId
    parentVersionId := excluded.parentVersionId
    inputAudioChecksum := excluded.inputAudioChecksum
    detectedLanguage := excluded.detectedLanguage
    reconciliationMetadataJson := excluded.reconciliationMetadataJson
    startedAtMs := excluded.startedAtMs <|> stored.startedAtMs
    completedAtMs := excluded.completedAtMs
    error := excluded.error
    updatedAtMs := excluded.updatedAtMs }

/-- The constraints of the table on an inserted version: a revision that is not
negative, one version for a kind and a revision, and an existing parent. -/
def versionConstraints (tables : TranscriptTables) (row : TranscriptVersionRow) : Prop :=
  0 ≤ row.revisionNumber ∧
    (∀ stored ∈ tables.versions, stored.meetingId = row.meetingId → stored.kind = row.kind →
      stored.revisionNumber = row.revisionNumber → stored.id = row.id) ∧
    ∀ parent ∈ row.parentVersionId,
      parent = row.id ∨ ∃ stored ∈ tables.versions, stored.id = parent

instance (tables : TranscriptTables) (row : TranscriptVersionRow) :
    Decidable (versionConstraints tables row) :=
  inferInstanceAs (Decidable (_ ∧ _ ∧ _))

def upsertTranscriptVersion (now : Int) (meetingId : String)
    (value : MeetingTranscriptVersionUpsertDto) (tables : TranscriptTables) :
    Change TranscriptTables := do
  ensure (∀ stored ∈ tables.version value.id, stored.meetingId = meetingId ∧
    stored.kind = value.kind ∧ stored.revisionNumber = asI64 value.revisionNumber) .conflict
  let row := TranscriptVersionRow.ofUpsert meetingId value now
  ensure (versionConstraints tables row) .database
  return { tables with
    versions := upsertRow TranscriptVersionRow.id TranscriptVersionRow.merge tables.versions row }

/-- What identifies a segment beside its key. -/
structure SegmentIdentity where
  meetingId : String
  transcriptVersionId : String
  provider : String
  providerNamespace : String
  providerTurnId : String
  deriving DecidableEq

def TranscriptSegmentRow.identity (row : TranscriptSegmentRow) : SegmentIdentity :=
  ⟨row.meetingId, row.transcriptVersionId, row.provider, row.providerNamespace,
    row.providerTurnId⟩

def MeetingTranscriptSegmentUpsertDto.identity (meetingId : String)
    (value : MeetingTranscriptSegmentUpsertDto) : SegmentIdentity :=
  ⟨meetingId, value.transcriptVersionId, value.provider, value.providerNamespace,
    value.providerTurnId⟩

/-- `transcript_segment_hash`. -/
def transcriptSegmentHash (host : StoreHost) (value : MeetingTranscriptSegmentUpsertDto) :
    String :=
  host.blake3 value.toJson.tokens

def TranscriptSegmentRow.ofUpsert (host : StoreHost) (meetingId : String)
    (value : MeetingTranscriptSegmentUpsertDto) (now : Int) : TranscriptSegmentRow where
  id := value.id
  meetingId
  transcriptVersionId := value.transcriptVersionId
  provider := value.provider
  providerNamespace := value.providerNamespace
  providerSessionId := value.providerSessionId
  providerTurnId := value.providerTurnId
  providerTurnOrder := value.providerTurnOrder
  revisionNumber := asI64 value.revisionNumber
  state := value.state
  speakerId := value.speakerId
  sourceKind := value.sourceKind
  startMs := value.startMs
  endMs := value.endMs
  finalizedText := value.text
  words := value.words
  contentHash := transcriptSegmentHash host value
  createdAtMs := now
  updatedAtMs := now

/-- `ON CONFLICT(id) DO UPDATE SET … WHERE …` of a segment. -/
def TranscriptSegmentRow.merge (excluded stored : TranscriptSegmentRow) : TranscriptSegmentRow :=
  if excluded.revisionNumber > stored.revisionNumber then
    { stored with
      providerSessionId := excluded.providerSessionId
      providerTurnOrder := excluded.providerTurnOrder
      revisionNumber := excluded.revisionNumber
      state := excluded.state
      speakerId := excluded.speakerId
      sourceKind := excluded.sourceKind
      startMs := excluded.startMs
      endMs := excluded.endMs
      finalizedText := excluded.finalizedText
      words := excluded.words
      contentHash := excluded.contentHash
      updatedAtMs := excluded.updatedAtMs }
  else stored

/-- One row of `transcript_segment_replacements`, for a live segment of the
meeting that the refined segment does not replace yet. -/
def insertReplacement (meetingId refinedSegmentId : String) (tables : TranscriptTables)
    (replacedId : String) : Change TranscriptTables := do
  ensure (∃ segment ∈ tables.segments, segment.id = replacedId ∧
    segment.meetingId = meetingId ∧ tables.isLive segment) .notFound
  ensure (⟨refinedSegmentId, replacedId⟩ ∉ tables.replacements) .database
  return { tables with
    replacements := tables.replacements ++ [⟨refinedSegmentId, replacedId⟩] }

/-- The statements that write a segment whose identity is free or its own. -/
def writeSegment (host : StoreHost) (now : Int) (meetingId : String)
    (speakers : List SpeakerRow) (value : MeetingTranscriptSegmentUpsertDto)
    (tables : TranscriptTables) : Change TranscriptTables := do
  whenPresent (ensureSpeaker speakers meetingId) value.speakerId
  ensure (0 ≤ asI64 value.revisionNumber) .database
  let row := TranscriptSegmentRow.ofUpsert host meetingId value now
  let tables := { tables with
    segments := upsertRow TranscriptSegmentRow.id TranscriptSegmentRow.merge tables.segments row
    replacements := tables.replacements.filter fun replacement =>
      replacement.refinedSegmentId ≠ value.id }
  value.replacedLiveSegmentIds.foldlM (insertReplacement meetingId value.id) tables

def upsertTranscriptSegment (host : StoreHost) (now : Int) (meetingId : String)
    (speakers : List SpeakerRow) (value : MeetingTranscriptSegmentUpsertDto)
    (tables : TranscriptTables) : Change (MeetingUpsertOutcomeKind × TranscriptTables) := do
  ensure (∀ stored ∈ tables.segment value.id, stored.identity = value.identity meetingId)
    .conflict
  let identity := lookup TranscriptSegmentRow.identity tables.segments (value.identity meetingId)
  ensure (∀ stored ∈ identity, stored.id = value.id) .conflict
  match identity with
  | none =>
    let tables ← writeSegment host now meetingId speakers value tables
    return (.inserted, tables)
  | some previous =>
    if asI64 value.revisionNumber ≤ previous.revisionNumber then
      return (if asI64 value.revisionNumber = previous.revisionNumber ∧
        transcriptSegmentHash host value = previous.contentHash then .duplicate
        else .staleIgnored, tables)
    else
      let tables ← writeSegment host now meetingId speakers value tables
      return (.revised, tables)

structure ObservationIdentity where
  meetingId : String
  transcriptVersionId : String
  provider : String
  providerNamespace : String
  providerSpeakerLabel : String
  deriving DecidableEq

def SpeakerObservationRow.identity (row : SpeakerObservationRow) : ObservationIdentity :=
  ⟨row.meetingId, row.transcriptVersionId, row.provider, row.providerNamespace,
    row.providerSpeakerLabel⟩

def MeetingSpeakerObservationUpsertDto.identity (meetingId : String)
    (value : MeetingSpeakerObservationUpsertDto) : ObservationIdentity :=
  ⟨meetingId, value.transcriptVersionId, value.provider, value.providerNamespace,
    value.providerSpeakerLabel⟩

def SpeakerObservationRow.ofUpsert (meetingId : String)
    (value : MeetingSpeakerObservationUpsertDto) (now : Int) : SpeakerObservationRow where
  id := value.id
  meetingId
  transcriptVersionId := value.transcriptVersionId
  speakerId := value.speakerId
  provider := value.provider
  providerNamespace := value.providerNamespace
  providerSpeakerLabel := value.providerSpeakerLabel
  confidence := value.confidence
  ambiguous := value.ambiguous
  revisionNumber := asI64 value.revisionNumber
  sourceHint := value.sourceHint
  createdAtMs := now
  updatedAtMs := now

/-- `ON CONFLICT(id) DO UPDATE SET … WHERE …` of an observation. -/
def SpeakerObservationRow.merge (excluded stored : SpeakerObservationRow) :
    SpeakerObservationRow :=
  if excluded.revisionNumber > stored.revisionNumber then
    { stored with
      speakerId := excluded.speakerId
      confidence := excluded.confidence
      ambiguous := excluded.ambiguous
      revisionNumber := excluded.revisionNumber
      sourceHint := excluded.sourceHint
      updatedAtMs := excluded.updatedAtMs }
  else stored

def upsertSpeakerObservation (now : Int) (meetingId : String) (speakers : List SpeakerRow)
    (tables : TranscriptTables) (value : MeetingSpeakerObservationUpsertDto) :
    Change TranscriptTables := do
  whenPresent (ensureSpeaker speakers meetingId) value.speakerId
  ensure (∀ stored ∈ lookup SpeakerObservationRow.id tables.observations value.id,
    stored.identity = value.identity meetingId) .conflict
  ensure (∀ stored ∈ lookup SpeakerObservationRow.identity tables.observations
    (value.identity meetingId), stored.id = value.id) .conflict
  ensure (0 ≤ asI64 value.revisionNumber) .database
  return { tables with
    observations := upsertRow SpeakerObservationRow.id SpeakerObservationRow.merge
      tables.observations (SpeakerObservationRow.ofUpsert meetingId value now) }

/-- `ON CONFLICT(meeting_id, segment_id) DO UPDATE SET … WHERE …` of a queued
segment. -/
def ClaimGateSegmentRow.merge (excluded stored : ClaimGateSegmentRow) : ClaimGateSegmentRow :=
  if excluded.queuedRevisionNumber > stored.queuedRevisionNumber then
    { stored with
      queuedRevisionNumber := excluded.queuedRevisionNumber
      enqueuedAtMs := excluded.enqueuedAtMs }
  else stored

/-- The primary key of the queue. -/
def ClaimGateSegmentRow.key (row : ClaimGateSegmentRow) : String × String :=
  (row.meetingId, row.segmentId)

def enqueueClaimGateSegment (meetingId segmentId : String) (revisionNumber : UInt64)
    (enqueuedAtMs : Int) (tables : ClaimGateTables) : Change ClaimGateTables := do
  ensure (0 ≤ asI64 revisionNumber) .database
  return { tables with
    segments := upsertRow ClaimGateSegmentRow.key ClaimGateSegmentRow.merge tables.segments
      { meetingId
        segmentId
        queuedRevisionNumber := asI64 revisionNumber
        processedRevisionNumber := none
        enqueuedAtMs
        processedAtMs := none } }

/-- What the loop over the segments of a request carries. -/
structure SegmentProgress where
  transcript : TranscriptTables
  claimGate : ClaimGateTables
  outcomes : List MeetingUpsertOutcomeDto

/-- A segment whose new text the claim gate has to see. -/
def queuesForClaimGate (kind : MeetingTranscriptVersionKind)
    (state : MeetingTranscriptSegmentState) (outcome : MeetingUpsertOutcomeKind) : Prop :=
  kind = .live ∧ (state = .final ∨ state = .revised) ∧
    (outcome = .inserted ∨ outcome = .revised)

instance (kind : MeetingTranscriptVersionKind) (state : MeetingTranscriptSegmentState)
    (outcome : MeetingUpsertOutcomeKind) : Decidable (queuesForClaimGate kind state outcome) :=
  inferInstanceAs (Decidable (_ ∧ _ ∧ _))

/-- The body of the loop over the segments of a request. -/
def applySegment (host : StoreHost) (now : Int) (meetingId : String)
    (kind : MeetingTranscriptVersionKind) (speakers : List SpeakerRow)
    (progress : SegmentProgress) (segment : MeetingTranscriptSegmentUpsertDto) :
    Change SegmentProgress := do
  let (outcome, transcript) ←
    upsertTranscriptSegment host now meetingId speakers segment progress.transcript
  let claimGate ←
    if queuesForClaimGate kind segment.state outcome then
      enqueueClaimGateSegment meetingId segment.id segment.revisionNumber now progress.claimGate
    else pure progress.claimGate
  return { transcript, claimGate, outcomes := progress.outcomes ++ [⟨segment.id, outcome⟩] }

/-- `UPDATE meetings SET canonical_transcript_version_id = ?, …`. -/
def MeetingsDb.promote (db : MeetingsDb) (meetingId versionId : String) (now : Int) :
    MeetingsDb :=
  { db with
    meetings := updateWhere (fun meeting => meeting.id = meetingId ∧ meeting.deletedAtMs = none)
      (fun meeting =>
        { meeting with canonicalTranscriptVersionId := some versionId, updatedAtMs := now })
      db.meetings }

def applyTranscriptChanges (host : StoreHost) (now : Int)
    (request : MeetingTranscriptApplyRequest) (db : MeetingsDb) :
    Change (List MeetingUpsertOutcomeDto × MeetingsDb) := do
  validateTranscriptRequest host request
  getMeeting db request.meetingId
  let transcript ← upsertTranscriptVersion now request.meetingId request.version db.transcript
  let progress ← request.segments.foldlM
    (applySegment host now request.meetingId request.version.kind db.speakers)
    { transcript, claimGate := db.claimGate, outcomes := [] }
  let transcript ← request.speakerObservations.foldlM
    (upsertSpeakerObservation now request.meetingId db.speakers) progress.transcript
  let db := { db with transcript, claimGate := progress.claimGate }
  if request.promoteCanonical then
    invalid (request.version.status ≠ .complete) "only a complete transcript can become canonical"
    return (progress.outcomes, db.promote request.meetingId request.version.id now)
  else return (progress.outcomes, db)

/-- `apply_transcript`, answering with the outcomes of the segments. -/
def applyTranscript (host : StoreHost) (now : Int) (request : MeetingTranscriptApplyRequest)
    (db : MeetingsDb) : Change (List MeetingUpsertOutcomeDto) × MeetingsDb :=
  transaction (applyTranscriptChanges host now request) db

end Obelus.Meetings
