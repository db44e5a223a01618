import Mathlib.Data.List.DropRight
import Obelus.Data.Table
import Obelus.Meetings.Validation

/-!
# Meetings and speakers

The rows of meetings and speakers with all the columns that listing, updating
and deleting meetings use, and what reading them gives.  A row of a meeting is
what reading it gives and the time of its deletion.
-/

namespace Obelus.Meetings

open Validation (isWhitespace)

inductive MeetingArtifactType
  | meeting
  | textCheck
  deriving DecidableEq

inductive MeetingMode
  | call
  | inPerson
  | text

inductive MeetingLifecycleStatus
  | setup
  | starting
  | recording
  | paused
  | stopping
  | finalizing
  | complete
  | interrupted
  | error
  deriving DecidableEq

inductive MeetingCaptureStatus
  | notStarted
  | active
  | paused
  | finalizing
  | complete
  | interrupted
  | error

inductive MeetingRefinementStatus
  | notStarted
  | queued
  | uploading
  | processing
  | reconciling
  | complete
  | retryWait
  | failed
  | cancelled

inductive MeetingResearchStatus
  | notStarted
  | queued
  | running
  | partialResults
  | complete
  | retryWait
  | failed
  | cancelled

inductive MeetingResearchJobStatus
  | pending
  | running
  | retryWait
  | complete
  | failed
  | cancelled
  deriving DecidableEq

structure MeetingDto where
  id : String
  title : String
  artifactType : MeetingArtifactType
  mode : MeetingMode
  status : MeetingLifecycleStatus
  startedAtMs : Int
  endedAtMs : Option Int
  canonicalTranscriptVersionId : Option String
  captureStatus : MeetingCaptureStatus
  refinementStatus : MeetingRefinementStatus
  researchStatus : MeetingResearchStatus
  lastError : Option MeetingTypedErrorDto
  createdAtMs : Int
  updatedAtMs : Int

/-- A row of `meetings`. -/
structure MeetingRecord extends MeetingDto where
  deletedAtMs : Option Int

/-- A row of `speakers`, which is also what reading it gives. -/
structure MeetingSpeakerDto where
  id : String
  meetingId : String
  defaultLabel : String
  displayName : Option String
  displayNameSource : Option String
  manualAssignmentLock : Bool
  sourceHint : Option MeetingAudioSourceKind
  createdAtMs : Int
  updatedAtMs : Int

/-- The name a speaker is shown under. -/
def MeetingSpeakerDto.shownName (speaker : MeetingSpeakerDto) : String :=
  speaker.displayName.getD speaker.defaultLabel

/-- The columns of `research_jobs` that a listing counts by. -/
structure ResearchJobRow where
  claimVersionId : String
  status : MeetingResearchJobStatus

/-- `str::trim`. -/
def trimWhitespace (text : String) : String :=
  let front := text.toList.dropWhile isWhitespace
  String.ofList (front.reverse.dropWhile isWhitespace).reverse

/-- Trimming a trimmed text changes nothing: its first character is the first
one of the text that is not white space. -/
theorem trimWhitespace_trimWhitespace (text : String) :
    trimWhitespace (trimWhitespace text) = trimWhitespace text := by
  have lists : ∀ text, (trimWhitespace text).toList =
      (text.toList.dropWhile isWhitespace).rdropWhile isWhitespace :=
    fun text => String.toList_ofList
  apply String.toList_inj.mp
  rw [lists, lists]
  have front : ((text.toList.dropWhile isWhitespace).rdropWhile
      isWhitespace).dropWhile isWhitespace =
        (text.toList.dropWhile isWhitespace).rdropWhile isWhitespace := by
    apply List.dropWhile_eq_self_iff.mpr
    intro nonempty
    have isPrefix := List.rdropWhile_prefix isWhitespace
      (text.toList.dropWhile isWhitespace)
    rw [isPrefix.getElem nonempty]
    exact List.dropWhile_get_zero_not _ _ (nonempty.trans_le isPrefix.length_le)
  rw [front, List.rdropWhile_idempotent]

/-- A host that takes every text for an identifier, for requests without JSON. -/
def plainHost : StoreHost where
  isUuid := fun _ => true
  encodedLength := fun _ => 0
  blake3 := fun _ => ""

/-!
## Tables of the meeting store

The rows of the tables that transcript and claims requests read and write, in
the order of their insertion.  The tables are grouped by what writes them; the
columns of meetings and speakers are those the requests use.
-/

open Obelus.Data

structure MeetingRow where
  id : String
  canonicalTranscriptVersionId : Option String
  deletedAtMs : Option Int
  updatedAtMs : Int
  deriving DecidableEq

structure SpeakerRow where
  id : String
  meetingId : String
  deriving DecidableEq

structure TranscriptVersionRow where
  id : String
  meetingId : String
  kind : MeetingTranscriptVersionKind
  status : MeetingTranscriptVersionStatus
  revisionNumber : Int
  provider : Option String
  model : Option String
  gatewayJobId : Option String
  parentVersionId : Option String
  inputAudioChecksum : Option String
  detectedLanguage : Option String
  reconciliationMetadataJson : Option (List JsonToken)
  startedAtMs : Option Int
  completedAtMs : Option Int
  error : Option MeetingTypedErrorDto
  createdAtMs : Int
  updatedAtMs : Int
  deriving DecidableEq

structure TranscriptSegmentRow where
  id : String
  meetingId : String
  transcriptVersionId : String
  provider : String
  providerNamespace : String
  providerSessionId : Option String
  providerTurnId : String
  providerTurnOrder : Int
  revisionNumber : Int
  state : MeetingTranscriptSegmentState
  speakerId : Option String
  sourceKind : MeetingAudioSourceKind
  startMs : Int
  endMs : Int
  finalizedText : String
  words : List MeetingTimedWordDto
  contentHash : String
  createdAtMs : Int
  updatedAtMs : Int
  deriving DecidableEq

structure SegmentReplacementRow where
  refinedSegmentId : String
  liveSegmentId : String
  deriving DecidableEq

structure SpeakerObservationRow where
  id : String
  meetingId : String
  transcriptVersionId : String
  speakerId : Option String
  provider : String
  providerNamespace : String
  providerSpeakerLabel : String
  confidence : Option ℚ
  ambiguous : Bool
  revisionNumber : Int
  sourceHint : Option MeetingAudioSourceKind
  createdAtMs : Int
  updatedAtMs : Int
  deriving DecidableEq

structure ClaimGateSegmentRow where
  meetingId : String
  segmentId : String
  queuedRevisionNumber : Int
  processedRevisionNumber : Option Int
  enqueuedAtMs : Int
  processedAtMs : Option Int
  deriving DecidableEq

structure ClaimGateBatchRow where
  id : String
  meetingId : String
  idempotencyKey : String
  processedAtMs : Option Int
  createdAtMs : Int
  deriving DecidableEq

structure ClaimGateBatchSegmentRow where
  batchId : String
  ordinal : Nat
  segmentId : String
  segmentRevisionNumber : Int
  snapshotSpeakerId : Option String
  snapshotStartMs : Int
  snapshotEndMs : Int
  snapshotText : String
  snapshotSourceKind : MeetingAudioSourceKind
  deriving DecidableEq

structure ManualFactCheckRequestRow where
  id : String
  meetingId : String
  exactSelection : String
  speakerId : Option String
  startMs : Option Int
  endMs : Option Int
  status : MeetingManualFactCheckRequestStatus
  error : Option MeetingTypedErrorDto
  contentHash : String
  createdAtMs : Int
  updatedAtMs : Int
  deriving DecidableEq

structure ManualFactCheckContextTurnRow where
  requestId : String
  ordinal : Nat
  turnId : String
  speakerId : Option String
  startMs : Int
  endMs : Int
  finalizedText : String
  revisionNumber : Int
  sourceKind : MeetingAudioSourceKind
  deriving DecidableEq

structure ManualFactCheckSegmentRow where
  requestId : String
  ordinal : Nat
  segmentId : String
  deriving DecidableEq

structure ClaimRow where
  id : String
  meetingId : String
  manualRequestId : Option String
  origin : MeetingClaimOrigin
  duplicateKey : Option String
  status : MeetingClaimStatus
  currentClaimVersionId : Option String
  createdAtMs : Int
  updatedAtMs : Int
  deriving DecidableEq

structure ClaimVersionRow where
  id : String
  claimId : String
  versionNumber : Int
  predecessorId : Option String
  supersededById : Option String
  sourceTranscriptVersionId : Option String
  exactQuote : String
  normalizedClaim : String
  speakerId : Option String
  startMs : Option Int
  endMs : Option Int
  selectionRationale : Option String
  consequenceScore : Option ℚ
  disputeScore : Option ℚ
  specificityScore : Option ℚ
  timeSensitive : Bool
  lifecycle : MeetingClaimVersionLifecycle
  contentHash : String
  createdAtMs : Int
  deriving DecidableEq

structure ClaimVersionSegmentRow where
  claimVersionId : String
  segmentId : String
  ordinal : Nat
  deriving DecidableEq

structure TranscriptTables where
  versions : List TranscriptVersionRow
  segments : List TranscriptSegmentRow
  replacements : List SegmentReplacementRow
  observations : List SpeakerObservationRow
  deriving DecidableEq

structure ClaimGateTables where
  segments : List ClaimGateSegmentRow
  batches : List ClaimGateBatchRow
  batchSegments : List ClaimGateBatchSegmentRow
  deriving DecidableEq

structure ClaimTables where
  manualRequests : List ManualFactCheckRequestRow
  contextTurns : List ManualFactCheckContextTurnRow
  requestSegments : List ManualFactCheckSegmentRow
  claims : List ClaimRow
  versions : List ClaimVersionRow
  versionSegments : List ClaimVersionSegmentRow
  deriving DecidableEq

structure MeetingsDb where
  meetings : List MeetingRow
  speakers : List SpeakerRow
  transcript : TranscriptTables
  claimGate : ClaimGateTables
  claims : ClaimTables
  deriving DecidableEq

/-- A successful change of some tables. -/
abbrev Change (τ : Type) :=
  Except MeetingStoreError τ

/-- `get_meeting` without deleted meetings; only its error matters here. -/
def getMeeting (db : MeetingsDb) (meetingId : String) : Checked :=
  ensure (∃ meeting ∈ db.meetings, meeting.id = meetingId ∧ meeting.deletedAtMs = none) .notFound

def ensureSpeaker (speakers : List SpeakerRow) (meetingId speakerId : String) : Checked :=
  ensure (∃ speaker ∈ speakers, speaker.id = speakerId ∧ speaker.meetingId = meetingId) .notFound

def ensureMeetingSegment (tables : TranscriptTables) (meetingId segmentId : String) : Checked :=
  ensure (∃ segment ∈ tables.segments, segment.id = segmentId ∧ segment.meetingId = meetingId)
    .notFound

namespace TranscriptTables

def version (tables : TranscriptTables) (id : String) : Option TranscriptVersionRow :=
  lookup TranscriptVersionRow.id tables.versions id

def segment (tables : TranscriptTables) (id : String) : Option TranscriptSegmentRow :=
  lookup TranscriptSegmentRow.id tables.segments id

/-- The version of a segment is a live one. -/
def isLive (tables : TranscriptTables) (segment : TranscriptSegmentRow) : Bool :=
  (tables.version segment.transcriptVersionId).any fun version => version.kind = .live

end TranscriptTables

/-- `UPDATE meetings SET updated_at_ms = ? WHERE id = ?`. -/
def MeetingsDb.touch (db : MeetingsDb) (meetingId : String) (now : Int) : MeetingsDb :=
  { db with
    meetings := updateWhere (fun meeting => meeting.id = meetingId)
      (fun meeting => { meeting with updatedAtMs := now }) db.meetings }

end Obelus.Meetings
