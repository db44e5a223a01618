import Obelus.Meetings.Store

/-!
# Research updates

`apply_research` stores a research job, an assessment or both, and moves the
claim of their version to the status that follows from them.  Of an assessment
and its sources the tables keep the columns that a statement of the store reads
again.
-/

namespace Obelus.Meetings

open Obelus.Data
open Validation

inductive MeetingAssessmentStage
  | preliminary
  | deep
  deriving DecidableEq

inductive MeetingAssessmentStatus
  | complete
  | failed
  deriving DecidableEq

inductive MeetingVerdict
  | supported
  | mostlySupported
  | mixed
  | unsupported
  | unverifiable
  deriving DecidableEq

inductive MeetingConfidence
  | low
  | medium
  | high
  deriving DecidableEq

structure MeetingResearchJobUpsertDto where
  id : String
  claimVersionId : String
  stage : MeetingAssessmentStage
  gatewayJobId : Option String
  idempotencyKey : String
  status : MeetingResearchJobStatus
  attemptCount : UInt32
  nextRetryAtMs : Option Int
  startedAtMs : Option Int
  completedAtMs : Option Int
  error : Option MeetingTypedErrorDto

structure MeetingCitedStatementDto where
  text : String
  citationKeys : List String

structure MeetingSourceInputDto where
  id : String
  citationKey : String
  url : String
  canonicalUrl : String
  publisher : String
  title : String
  publicationDate : Option String
  accessedAtMs : Int
  evidenceExcerpt : String
  qualityScore : Option ℚ
  qualityRationale : String

structure MeetingAssessmentApplyDto where
  id : String
  claimVersionId : String
  stage : MeetingAssessmentStage
  attemptNumber : UInt32
  status : MeetingAssessmentStatus
  supersedesId : Option String
  verdict : MeetingVerdict
  confidence : MeetingConfidence
  conclusion : List MeetingCitedStatementDto
  support : List MeetingCitedStatementDto
  contradiction : List MeetingCitedStatementDto
  caveats : List MeetingCitedStatementDto
  limitations : List MeetingCitedStatementDto
  modelProvider : String
  model : String
  modelVersion : Option String
  usage : Option Json
  latencyMs : Option Int
  startedAtMs : Int
  completedAtMs : Int
  error : Option MeetingTypedErrorDto
  sources : List MeetingSourceInputDto
  setCurrent : Bool

structure MeetingResearchApplyRequest where
  meetingId : String
  job : Option MeetingResearchJobUpsertDto
  assessment : Option MeetingAssessmentApplyDto

/-- A row of `research_jobs`. -/
structure ResearchJobRecord where
  id : String
  claimVersionId : String
  stage : MeetingAssessmentStage
  gatewayJobId : Option String
  idempotencyKey : String
  status : MeetingResearchJobStatus
  attemptCount : Int
  nextRetryAtMs : Option Int
  startedAtMs : Option Int
  completedAtMs : Option Int
  error : Option MeetingTypedErrorDto
  createdAtMs : Int
  updatedAtMs : Int

structure AssessmentRow where
  id : String
  claimVersionId : String
  stage : MeetingAssessmentStage
  attemptNumber : Int
  isCurrent : Bool
  supersedesId : Option String
  createdAtMs : Int

structure SourceRow where
  id : String
  assessmentId : String
  citationKey : String
  canonicalUrl : String

structure ResearchTables where
  jobs : List ResearchJobRecord
  assessments : List AssessmentRow
  sources : List SourceRow

/-- What the store takes from its libraries, with the test of a URL: it parses,
its scheme is `http` or `https`, and it has a host. -/
structure ResearchHost extends StoreHost where
  isWebUrl : String → Bool

namespace Validation

def maxExcerptBytes : Nat := 8 * 1024
def maxUrlBytes : Nat := 8 * 1024
def maxSourcesPerAssessment : Nat := 32
def maxStatementsPerField : Nat := 64

def sourceUrl (host : ResearchHost) (value : String) : Checked := do
  nonempty value maxUrlBytes "invalid source URL"
  invalid (¬host.isWebUrl value) "invalid source URL"

def statementsWithCitationPolicy (values : List MeetingCitedStatementDto)
    (allowEmptyCitations : Bool) : Checked := do
  invalid (maxStatementsPerField < values.length) "too many assessment statements"
  forEach (fun value => do
    nonempty value.text maxClaimBytes "invalid assessment statement"
    invalid (¬allowEmptyCitations ∧ value.citationKeys = [] ∨ 16 < value.citationKeys.length)
      "assessment statement citations are invalid"
    forEach (fun citation => nonempty citation 128 "invalid citation key") value.citationKeys)
    values

def statements (values : List MeetingCitedStatementDto) : Checked :=
  statementsWithCitationPolicy values false

def conclusionStatements (values : List MeetingCitedStatementDto) : Checked :=
  statementsWithCitationPolicy values true

end Validation

def validateOptionalTime (value : Option Int) : Checked :=
  invalid (∃ time ∈ value, time < 0) "invalid timestamp"

def validateResearchJob (host : StoreHost) (value : MeetingResearchJobUpsertDto) : Checked := do
  uuid host value.id
  uuid host value.claimVersionId
  nonempty value.idempotencyKey 512 "invalid research idempotency key"
  optional value.gatewayJobId 512 "invalid gateway job identifier"
  typedError value.error
  validateOptionalTime value.nextRetryAtMs
  validateOptionalTime value.startedAtMs
  validateOptionalTime value.completedAtMs

/-- Check the sources of an assessment after those seen before. -/
def validateSources (host : ResearchHost) :
    List MeetingSourceInputDto → List MeetingSourceInputDto → Checked
  | _, [] => .ok ⟨⟩
  | seen, source :: rest => do
    uuid host.toStoreHost source.id
    nonempty source.citationKey 128 "invalid citation key"
    sourceUrl host source.url
    sourceUrl host source.canonicalUrl
    nonempty source.publisher 512 "invalid source publisher"
    nonempty source.title 2048 "invalid source title"
    optional source.publicationDate 64 "invalid publication date"
    validateOptionalTime (some source.accessedAtMs)
    nonempty source.evidenceExcerpt maxExcerptBytes "invalid evidence excerpt"
    score source.qualityScore
    nonempty source.qualityRationale 4096 "invalid source quality rationale"
    invalid (source.id ∈ seen.map MeetingSourceInputDto.id ∨
      source.citationKey ∈ seen.map MeetingSourceInputDto.citationKey ∨
      source.canonicalUrl ∈ seen.map MeetingSourceInputDto.canonicalUrl)
      "duplicate assessment source"
    validateSources host (source :: seen) rest

/-- A finding without evidence, whose conclusion need not cite a source. -/
def MeetingAssessmentApplyDto.isUnverified (value : MeetingAssessmentApplyDto) : Prop :=
  value.verdict = .unverifiable ∧ value.confidence = .low ∧ value.support.isEmpty ∧
    value.contradiction.isEmpty ∧ value.caveats.isEmpty ∧ ¬value.limitations.isEmpty

instance (value : MeetingAssessmentApplyDto) : Decidable value.isUnverified :=
  inferInstanceAs (Decidable (_ ∧ _ ∧ _ ∧ _ ∧ _ ∧ _))

def validateAssessment (host : ResearchHost) (value : MeetingAssessmentApplyDto) : Checked := do
  uuid host.toStoreHost value.id
  uuid host.toStoreHost value.claimVersionId
  invalid (value.attemptNumber = 0) "invalid assessment attempt"
  whenPresent (uuid host.toStoreHost) value.supersedesId
  timestampRange value.startedAtMs (some value.completedAtMs)
  conclusionStatements value.conclusion
  statements value.support
  statements value.contradiction
  statements value.caveats
  statements value.limitations
  nonempty value.modelProvider 128 "invalid assessment provider"
  nonempty value.model 256 "invalid assessment model"
  optional value.modelVersion 256 "invalid assessment model version"
  jsonSize host.toStoreHost value.usage
  typedError value.error
  invalid (value.status ≠ .complete ∨ value.error.isSome)
    "operational failure cannot be stored as an assessment"
  invalid ((∃ latency ∈ value.latencyMs, latency < 0) ∨
    maxSourcesPerAssessment < value.sources.length) "invalid assessment metadata"
  validateSources host [] value.sources
  invalid (value.sources.isEmpty) "an assessment requires retrieved evidence"
  invalid (value.conclusion.isEmpty) "assessment conclusion is missing"
  invalid ((∃ statement ∈ value.conclusion, statement.citationKeys = []) ∧ ¬value.isUnverified)
    "uncited conclusion is only valid for an evidence-bounded unverified finding"
  invalid (∃ statement ∈ value.conclusion ++ value.support ++ value.contradiction ++
    value.caveats ++ value.limitations, ∃ citationKey ∈ statement.citationKeys,
      citationKey ∉ value.sources.map MeetingSourceInputDto.citationKey)
    "assessment citation is missing a source"

def ensureClaimVersion (meetingId : String) (tables : ClaimTables) (claimVersionId : String) :
    Checked :=
  ensure (∃ version ∈ tables.versions, version.id = claimVersionId ∧
    ∃ claim ∈ tables.claims, claim.id = version.claimId ∧ claim.meetingId = meetingId) .notFound

def ResearchJobRecord.ofUpsert (value : MeetingResearchJobUpsertDto) (now : Int) :
    ResearchJobRecord where
  id := value.id
  claimVersionId := value.claimVersionId
  stage := value.stage
  gatewayJobId := value.gatewayJobId
  idempotencyKey := value.idempotencyKey
  status := value.status
  attemptCount := value.attemptCount.toNat
  nextRetryAtMs := value.nextRetryAtMs
  startedAtMs := value.startedAtMs
  completedAtMs := value.completedAtMs
  error := value.error
  createdAtMs := now
  updatedAtMs := now

/-- `ON CONFLICT(id) DO UPDATE SET …` of a research job. -/
def ResearchJobRecord.merge (excluded stored : ResearchJobRecord) : ResearchJobRecord :=
  { stored with
    gatewayJobId := excluded.gatewayJobId
    status := excluded.status
    attemptCount := excluded.attemptCount
    nextRetryAtMs := excluded.nextRetryAtMs
    startedAtMs := excluded.startedAtMs <|> stored.startedAtMs
    completedAtMs := excluded.completedAtMs
    error := excluded.error
    updatedAtMs := excluded.updatedAtMs }

def upsertResearchJob (now : Int) (meetingId : String) (claims : ClaimTables)
    (value : MeetingResearchJobUpsertDto) (tables : ResearchTables) : Change ResearchTables := do
  ensureClaimVersion meetingId claims value.claimVersionId
  ensure (∀ stored ∈ lookup ResearchJobRecord.id tables.jobs value.id,
    stored.claimVersionId = value.claimVersionId ∧ stored.stage = value.stage ∧
      stored.idempotencyKey = value.idempotencyKey) .conflict
  ensure (∀ stored ∈ tables.jobs, stored.idempotencyKey = value.idempotencyKey →
    stored.id = value.id) .conflict
  return { tables with
    jobs := upsertRow ResearchJobRecord.id ResearchJobRecord.merge tables.jobs
      (ResearchJobRecord.ofUpsert value now) }

/-- One row of `sources`. -/
def insertSource (assessmentId : String) (tables : ResearchTables)
    (source : MeetingSourceInputDto) : Change ResearchTables := do
  ensure (∀ stored ∈ tables.sources, stored.id ≠ source.id ∧
    ¬(stored.assessmentId = assessmentId ∧ (stored.citationKey = source.citationKey ∨
      stored.canonicalUrl = source.canonicalUrl))) .conflict
  return { tables with
    sources := tables.sources ++
      [⟨source.id, assessmentId, source.citationKey, source.canonicalUrl⟩] }

/-- The statements that insert an assessment which is not stored yet. -/
def insertNewAssessment (now : Int) (value : MeetingAssessmentApplyDto)
    (tables : ResearchTables) : Change ResearchTables := do
  whenPresent (fun supersedesId =>
    ensure (∃ stored ∈ tables.assessments, stored.id = supersedesId ∧
      stored.claimVersionId = value.claimVersionId ∧ stored.stage = value.stage) .conflict)
    value.supersedesId
  let assessments := if value.setCurrent then
      updateWhere (fun stored => stored.claimVersionId = value.claimVersionId ∧
          stored.stage = value.stage)
        (fun stored => { stored with isCurrent := false }) tables.assessments
    else tables.assessments
  ensure (∀ stored ∈ assessments, ¬(stored.claimVersionId = value.claimVersionId ∧
    stored.stage = value.stage ∧ stored.attemptNumber = value.attemptNumber.toNat)) .conflict
  let row : AssessmentRow :=
    { id := value.id
      claimVersionId := value.claimVersionId
      stage := value.stage
      attemptNumber := value.attemptNumber.toNat
      isCurrent := value.setCurrent
      supersedesId := value.supersedesId
      createdAtMs := now }
  value.sources.foldlM (insertSource value.id)
    { tables with assessments := assessments ++ [row] }

/-- An assessment that is stored already is left as it is. -/
def insertAssessment (now : Int) (meetingId : String) (claims : ClaimTables)
    (value : MeetingAssessmentApplyDto) (tables : ResearchTables) : Change ResearchTables := do
  ensureClaimVersion meetingId claims value.claimVersionId
  match lookup AssessmentRow.id tables.assessments value.id with
  | some stored =>
    ensure (stored.claimVersionId = value.claimVersionId ∧ stored.stage = value.stage ∧
      stored.attemptNumber = value.attemptNumber.toNat) .conflict
    return tables
  | none => insertNewAssessment now value tables

def completedClaimStatus : MeetingAssessmentStage → MeetingClaimStatus
  | .preliminary => .preliminary
  | .deep => .complete

def claimStatusForResearchJob (stage : MeetingAssessmentStage) :
    MeetingResearchJobStatus → MeetingClaimStatus
  | .pending | .retryWait => .queued
  | .running =>
    match stage with
    | .preliminary => .quickRunning
    | .deep => .deepRunning
  | .complete => completedClaimStatus stage
  | .failed => .failed
  | .cancelled => .cancelled

def claimStatusForAssessment (stage : MeetingAssessmentStage) :
    MeetingAssessmentStatus → MeetingClaimStatus
  | .complete => completedClaimStatus stage
  | .failed => .failed

def updateClaimStatusForVersion (now : Int) (meetingId claimVersionId : String)
    (status : MeetingClaimStatus) (tables : ClaimTables) : Change ClaimTables := do
  let claimId := (lookup ClaimVersionRow.id tables.versions claimVersionId).map
    ClaimVersionRow.claimId
  ensure (∃ claim ∈ tables.claims, claim.meetingId = meetingId ∧ some claim.id = claimId) .notFound
  return { tables with
    claims := updateWhere (fun claim => claim.meetingId = meetingId ∧ some claim.id = claimId)
      (fun claim => { claim with status, updatedAtMs := now }) tables.claims }

/-- The columns of a meeting that tell how far its jobs are. -/
structure MeetingProgressRow where
  meetingId : String
  researchStatus : MeetingResearchStatus
  refinementStatus : MeetingRefinementStatus

def researchStatusForJob : MeetingResearchJobStatus → MeetingResearchStatus
  | .pending => .queued
  | .running => .running
  | .retryWait => .retryWait
  | .complete => .complete
  | .failed => .failed
  | .cancelled => .cancelled

/-- The meetings with their research. -/
structure ResearchDb extends MeetingsDb where
  research : ResearchTables
  progress : List MeetingProgressRow

def applyResearchJob (now : Int) (meetingId : String) (db : ResearchDb)
    (job : MeetingResearchJobUpsertDto) : Change ResearchDb := do
  let research ← upsertResearchJob now meetingId db.claims job db.research
  let claims ← updateClaimStatusForVersion now meetingId job.claimVersionId
    (claimStatusForResearchJob job.stage job.status) db.claims
  return { db with research, claims }

def applyAssessment (now : Int) (meetingId : String) (db : ResearchDb)
    (assessment : MeetingAssessmentApplyDto) : Change ResearchDb := do
  let research ← insertAssessment now meetingId db.claims assessment db.research
  let claims ← updateClaimStatusForVersion now meetingId assessment.claimVersionId
    (claimStatusForAssessment assessment.stage assessment.status) db.claims
  return { db with research, claims }

/-- `UPDATE meetings SET research_status = ?, updated_at_ms = ? WHERE id = ?`,
without the status when the request has no job. -/
def ResearchDb.touchResearch (db : ResearchDb) (meetingId : String)
    (job : Option MeetingResearchJobUpsertDto) (now : Int) : ResearchDb :=
  { db with
    toMeetingsDb := db.toMeetingsDb.touch meetingId now
    progress := match job with
      | some job => updateWhere (fun row => row.meetingId = meetingId)
          (fun row => { row with researchStatus := researchStatusForJob job.status }) db.progress
      | none => db.progress }

def applyResearchChanges (host : ResearchHost) (now : Int) (request : MeetingResearchApplyRequest)
    (db : ResearchDb) : Change (PUnit × ResearchDb) := do
  uuid host.toStoreHost request.meetingId
  invalid (request.job.isNone ∧ request.assessment.isNone) "research update is empty"
  whenPresent (validateResearchJob host.toStoreHost) request.job
  whenPresent (validateAssessment host) request.assessment
  getMeeting db.toMeetingsDb request.meetingId
  let db ← request.job.toList.foldlM (applyResearchJob now request.meetingId) db
  let db ← request.assessment.toList.foldlM (applyAssessment now request.meetingId) db
  return (⟨⟩, db.touchResearch request.meetingId request.job now)

/-- `apply_research`, without the rows it reads again to answer. -/
def applyResearch (host : ResearchHost) (now : Int) (request : MeetingResearchApplyRequest)
    (db : ResearchDb) : Checked × ResearchDb :=
  transaction (applyResearchChanges host now request) db

end Obelus.Meetings
