import Obelus.Meetings.Research

/-!
# Refinement results

`apply_refinement_job` stores the progress of a transcript refinement, and
`apply_refinement_result` stores the refined transcript, marks the claim
versions it makes stale, stores their replacements, completes the job and makes
the refined version canonical, all in one transaction.
-/

namespace Obelus.Meetings

open Obelus.Data
open Validation

inductive MeetingRefinementJobStatus
  | queued
  | uploading
  | processing
  | reconciling
  | complete
  | retryWait
  | failed
  | cancelled

structure MeetingRefinementJobUpsertDto where
  id : String
  sourceTranscriptVersionId : String
  inputManifestChecksum : String
  provider : String
  model : String
  gatewayJobId : Option String
  idempotencyKey : String
  status : MeetingRefinementJobStatus
  attemptCount : UInt32
  nextRetryAtMs : Option Int
  usage : Option Json
  latencyMs : Option Int
  startedAtMs : Option Int
  completedAtMs : Option Int
  error : Option MeetingTypedErrorDto

structure MeetingRefinementJobApplyRequest where
  meetingId : String
  job : MeetingRefinementJobUpsertDto

structure MeetingRefinementResultApplyRequest where
  meetingId : String
  refinementJobId : String
  version : MeetingTranscriptVersionUpsertDto
  segments : List MeetingTranscriptSegmentUpsertDto
  speakerObservations : List MeetingSpeakerObservationUpsertDto
  markStaleClaimVersionIds : List String
  replacementClaimVersions : List MeetingClaimVersionUpsertDto

/-- A row of `transcript_refinement_jobs`. -/
structure RefinementJobRow where
  id : String
  meetingId : String
  sourceTranscriptVersionId : String
  inputManifestChecksum : String
  provider : String
  model : String
  gatewayJobId : Option String
  idempotencyKey : String
  status : MeetingRefinementJobStatus
  attemptCount : Int
  nextRetryAtMs : Option Int
  usageJson : Option (List JsonToken)
  latencyMs : Option Int
  startedAtMs : Option Int
  completedAtMs : Option Int
  error : Option MeetingTypedErrorDto
  createdAtMs : Int
  updatedAtMs : Int

/-- The meetings with their research and their refinement jobs. -/
structure RefinementDb extends ResearchDb where
  refinementJobs : List RefinementJobRow

def validateRefinementJob (host : StoreHost) (value : MeetingRefinementJobUpsertDto) :
    Checked := do
  uuid host value.id
  uuid host value.sourceTranscriptVersionId
  nonempty value.inputManifestChecksum 512 "invalid refinement manifest checksum"
  nonempty value.provider 128 "invalid refinement provider"
  nonempty value.model 256 "invalid refinement model"
  optional value.gatewayJobId 512 "invalid gateway job identifier"
  nonempty value.idempotencyKey 512 "invalid refinement idempotency key"
  jsonSize host value.usage
  typedError value.error
  invalid (∃ latency ∈ value.latencyMs, latency < 0) "invalid refinement latency"
  validateOptionalTime value.nextRetryAtMs
  validateOptionalTime value.startedAtMs
  validateOptionalTime value.completedAtMs

def RefinementJobRow.ofUpsert (meetingId : String) (value : MeetingRefinementJobUpsertDto)
    (now : Int) : RefinementJobRow where
  id := value.id
  meetingId
  sourceTranscriptVersionId := value.sourceTranscriptVersionId
  inputManifestChecksum := value.inputManifestChecksum
  provider := value.provider
  model := value.model
  gatewayJobId := value.gatewayJobId
  idempotencyKey := value.idempotencyKey
  status := value.status
  attemptCount := value.attemptCount.toNat
  nextRetryAtMs := value.nextRetryAtMs
  usageJson := value.usage.map Json.tokens
  latencyMs := value.latencyMs
  startedAtMs := value.startedAtMs
  completedAtMs := value.completedAtMs
  error := value.error
  createdAtMs := now
  updatedAtMs := now

/-- `ON CONFLICT(id) DO UPDATE SET …` of a refinement job. -/
def RefinementJobRow.merge (excluded stored : RefinementJobRow) : RefinementJobRow :=
  { stored with
    gatewayJobId := excluded.gatewayJobId
    status := excluded.status
    attemptCount := excluded.attemptCount
    nextRetryAtMs := excluded.nextRetryAtMs
    usageJson := excluded.usageJson
    latencyMs := excluded.latencyMs
    startedAtMs := excluded.startedAtMs <|> stored.startedAtMs
    completedAtMs := excluded.completedAtMs
    error := excluded.error
    updatedAtMs := excluded.updatedAtMs }

def upsertRefinementJob (now : Int) (meetingId : String) (transcript : TranscriptTables)
    (value : MeetingRefinementJobUpsertDto) (jobs : List RefinementJobRow) :
    Change (List RefinementJobRow) := do
  ensure (∃ version ∈ transcript.versions, version.id = value.sourceTranscriptVersionId ∧
    version.meetingId = meetingId) .notFound
  ensure (∀ stored ∈ lookup RefinementJobRow.id jobs value.id, stored.meetingId = meetingId ∧
    stored.sourceTranscriptVersionId = value.sourceTranscriptVersionId ∧
    stored.inputManifestChecksum = value.inputManifestChecksum ∧
    stored.provider = value.provider ∧ stored.model = value.model ∧
    stored.idempotencyKey = value.idempotencyKey) .conflict
  ensure (∀ stored ∈ jobs, stored.idempotencyKey = value.idempotencyKey → stored.id = value.id)
    .conflict
  return upsertRow RefinementJobRow.id RefinementJobRow.merge jobs
    (RefinementJobRow.ofUpsert meetingId value now)

def refinementStatusForJob : MeetingRefinementJobStatus → MeetingRefinementStatus
  | .queued => .queued
  | .uploading => .uploading
  | .processing => .processing
  | .reconciling => .reconciling
  | .complete => .complete
  | .retryWait => .retryWait
  | .failed => .failed
  | .cancelled => .cancelled

/-- `UPDATE meetings SET refinement_status = ? WHERE id = ?`. -/
def setRefinementStatus (meetingId : String) (status : MeetingRefinementStatus)
    (progress : List MeetingProgressRow) : List MeetingProgressRow :=
  updateWhere (fun row => row.meetingId = meetingId)
    (fun row => { row with refinementStatus := status }) progress

def applyRefinementJobChanges (host : StoreHost) (now : Int)
    (request : MeetingRefinementJobApplyRequest) (db : RefinementDb) :
    Change (PUnit × RefinementDb) := do
  uuid host request.meetingId
  validateRefinementJob host request.job
  getMeeting db.toMeetingsDb request.meetingId
  let refinementJobs ←
    upsertRefinementJob now request.meetingId db.transcript request.job db.refinementJobs
  return (⟨⟩, { db with
    toMeetingsDb := db.toMeetingsDb.touch request.meetingId now
    progress := setRefinementStatus request.meetingId (refinementStatusForJob request.job.status)
      db.progress
    refinementJobs })

/-- `apply_refinement_job`, without the job it reads again to answer. -/
def applyRefinementJob (host : StoreHost) (now : Int) (request : MeetingRefinementJobApplyRequest)
    (db : RefinementDb) : Checked × RefinementDb :=
  transaction (applyRefinementJobChanges host now request) db

/-- The transcript request a result is checked as. -/
def MeetingRefinementResultApplyRequest.transcriptRequest
    (request : MeetingRefinementResultApplyRequest) : MeetingTranscriptApplyRequest where
  meetingId := request.meetingId
  version := request.version
  segments := request.segments
  speakerObservations := request.speakerObservations
  promoteCanonical := true

/-- The claims request the replacements of a result are checked as. -/
def MeetingRefinementResultApplyRequest.claimsRequest
    (request : MeetingRefinementResultApplyRequest) : MeetingClaimsApplyRequest where
  meetingId := request.meetingId
  manualFactCheckRequests := []
  claimVersions := request.replacementClaimVersions
  markStaleClaimVersionIds := []
  beginClaimGateBatches := []
  completeClaimGateBatchIds := []

/-- Check the replacements whose predecessors were not seen before. -/
def validateReplacements (request : MeetingRefinementResultApplyRequest) :
    List String → List MeetingClaimVersionUpsertDto → Checked
  | _, [] => .ok ⟨⟩
  | seen, replacement :: rest =>
    match replacement.predecessorId with
    | none => .error (.validation "refinement replacement requires a predecessor")
    | some predecessorId => do
      invalid (predecessorId ∉ request.markStaleClaimVersionIds ∨ predecessorId ∈ seen ∨
        replacement.sourceTranscriptVersionId ≠ some request.version.id ∨
        replacement.status ≠ .rechecking ∨ replacement.lifecycle ≠ .rechecking ∨
        ¬replacement.setCurrent) "invalid refinement replacement claim version"
      validateReplacements request (predecessorId :: seen) rest

def validateRefinementResult (host : StoreHost) (request : MeetingRefinementResultApplyRequest) :
    Checked := do
  uuid host request.refinementJobId
  invalid (request.version.kind ≠ .refined ∨ request.version.status ≠ .complete)
    "refinement result must be a complete refined transcript"
  validateTranscriptRequest host request.transcriptRequest
  invalid (maxClaimsPerBatch <
    request.markStaleClaimVersionIds.length + request.replacementClaimVersions.length)
    "claim batch is too large"
  forEach (uuid host) request.markStaleClaimVersionIds
  validateClaimsRequest host request.claimsRequest
  validateReplacements request [] request.replacementClaimVersions

def RefinementDb.ensureRefinementJob (db : RefinementDb) (meetingId jobId : String) : Checked :=
  ensure (∃ job ∈ db.refinementJobs, job.id = jobId ∧ job.meetingId = meetingId) .notFound

/-- The body of the loop over the segments of a result. -/
def applyRefinedSegment (host : StoreHost) (now : Int) (meetingId : String)
    (speakers : List SpeakerRow) (progress : TranscriptTables × List MeetingUpsertOutcomeDto)
    (segment : MeetingTranscriptSegmentUpsertDto) :
    Change (TranscriptTables × List MeetingUpsertOutcomeDto) := do
  let (outcome, transcript) ←
    upsertTranscriptSegment host now meetingId speakers segment progress.1
  return (transcript, progress.2 ++ [⟨segment.id, outcome⟩])

/-- The statements that store the refined transcript. -/
def applyRefinedTranscript (host : StoreHost) (now : Int)
    (request : MeetingRefinementResultApplyRequest) (speakers : List SpeakerRow)
    (transcript : TranscriptTables) :
    Change (TranscriptTables × List MeetingUpsertOutcomeDto) := do
  let transcript ← upsertTranscriptVersion now request.meetingId request.version transcript
  let (transcript, outcomes) ← request.segments.foldlM
    (applyRefinedSegment host now request.meetingId speakers) (transcript, [])
  let transcript ← request.speakerObservations.foldlM
    (upsertSpeakerObservation now request.meetingId speakers) transcript
  return (transcript, outcomes)

/-- The statements that mark claim versions stale and store their replacements. -/
def applyRefinedClaims (host : StoreHost) (now : Int)
    (request : MeetingRefinementResultApplyRequest) (db : MeetingsDb) : Change ClaimTables := do
  let claims ← request.markStaleClaimVersionIds.foldlM
    (markClaimVersionStale now request.meetingId) db.claims
  request.replacementClaimVersions.foldlM (applyClaimVersion host now request.meetingId db) claims

/-- `UPDATE transcript_refinement_jobs SET status = 'complete', … WHERE id = ?`. -/
def completeRefinementJob (now : Int) (jobId : String) (jobs : List RefinementJobRow) :
    List RefinementJobRow :=
  updateWhere (fun job => job.id = jobId)
    (fun job =>
      { job with
        status := .complete
        completedAtMs := job.completedAtMs <|> some now
        error := none
        updatedAtMs := now }) jobs

/-- The update of the meeting, which also sets its refinement status. -/
def RefinementDb.promote (db : RefinementDb) (meetingId versionId : String) (now : Int) :
    RefinementDb :=
  { db with
    toMeetingsDb := db.toMeetingsDb.promote meetingId versionId now
    progress := updateWhere (fun row => row.meetingId = meetingId ∧
        ∃ meeting ∈ db.meetings, meeting.id = meetingId ∧ meeting.deletedAtMs = none)
      (fun row => { row with refinementStatus := .complete }) db.progress }

def applyRefinementResultChanges (host : StoreHost) (now : Int)
    (request : MeetingRefinementResultApplyRequest) (db : RefinementDb) :
    Change (List MeetingUpsertOutcomeDto × RefinementDb) := do
  validateRefinementResult host request
  getMeeting db.toMeetingsDb request.meetingId
  db.ensureRefinementJob request.meetingId request.refinementJobId
  let (transcript, outcomes) ← applyRefinedTranscript host now request db.speakers db.transcript
  let claims ← applyRefinedClaims host now request { db.toMeetingsDb with transcript }
  return (outcomes, { db with
    transcript
    claims
    refinementJobs := completeRefinementJob now request.refinementJobId db.refinementJobs }.promote
      request.meetingId request.version.id now)

/-- `apply_refinement_result`, answering with the outcomes of the segments. -/
def applyRefinementResult (host : StoreHost) (now : Int)
    (request : MeetingRefinementResultApplyRequest) (db : RefinementDb) :
    Change (List MeetingUpsertOutcomeDto) × RefinementDb :=
  transaction (applyRefinementResultChanges host now request) db

end Obelus.Meetings
