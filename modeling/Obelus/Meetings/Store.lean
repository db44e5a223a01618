import Obelus.Meetings.ClaimGate
import Obelus.Transition.Reaches

/-!
# Claims requests

`apply_claims` writes manual fact-check requests, begins claim gate batches,
upserts claim versions, marks versions stale and completes claim gate batches,
in this order and in one transaction.
-/

namespace Obelus.Meetings

open Obelus.Data
open Validation

def manualFactCheckStatusTransitionAllowed
    (existing next : MeetingManualFactCheckRequestStatus) : Bool :=
  existing = next ||
    match existing, next with
    | .queued, .processing | .queued, .retryWait | .queued, .complete | .queued, .failed => true
    | .processing, .retryWait | .processing, .complete | .processing, .failed => true
    | .retryWait, .processing | .retryWait, .complete | .retryWait, .failed => true
    | _, _ => false

def ManualFactCheckRequestRow.ofUpsert (host : StoreHost) (meetingId : String)
    (value : MeetingManualFactCheckRequestUpsertDto) (now : Int) :
    ManualFactCheckRequestRow where
  id := value.id
  meetingId
  exactSelection := value.exactSelection
  speakerId := value.speakerId
  startMs := value.startMs
  endMs := value.endMs
  status := value.status
  error := value.error
  contentHash := host.blake3 value.semantic.tokens
  createdAtMs := now
  updatedAtMs := now

def ManualFactCheckContextTurnRow.ofTurn (requestId : String) (ordinal : Nat)
    (turn : MeetingClaimGateTurnDto) : ManualFactCheckContextTurnRow where
  requestId
  ordinal
  turnId := turn.id
  speakerId := turn.speakerId
  startMs := turn.startMs
  endMs := turn.endMs
  finalizedText := turn.text
  revisionNumber := asI64 turn.revisionNumber
  sourceKind := turn.sourceKind

/-- The rows a manual request refers to. -/
def checkManualReferences (meetingId : String) (db : MeetingsDb)
    (value : MeetingManualFactCheckRequestUpsertDto) : Checked := do
  whenPresent (ensureSpeaker db.speakers meetingId) value.speakerId
  forEach (fun turn => do
    (if turn.sourceKind = .text then .ok ⟨⟩
      else ensureMeetingSegment db.transcript meetingId turn.id : Checked)
    whenPresent (ensureSpeaker db.speakers meetingId) turn.speakerId) value.contextTurns
  forEach (ensureMeetingSegment db.transcript meetingId) value.sourceSegmentIds

def upsertManualFactCheckRequest (host : StoreHost) (now : Int) (meetingId : String)
    (db : MeetingsDb) (tables : ClaimTables) (value : MeetingManualFactCheckRequestUpsertDto) :
    Change ClaimTables := do
  checkManualReferences meetingId db value
  let row := ManualFactCheckRequestRow.ofUpsert host meetingId value now
  match lookup ManualFactCheckRequestRow.id tables.manualRequests value.id with
  | some stored =>
    ensure (stored.meetingId = meetingId ∧ stored.contentHash = row.contentHash) .conflict
    if stored.status = value.status ∧ stored.error = value.error then return tables
    else
      ensure (manualFactCheckStatusTransitionAllowed stored.status value.status) .conflict
      return { tables with
        manualRequests := updateWhere (fun stored => stored.id = value.id)
          (fun stored =>
            { stored with status := value.status, error := value.error, updatedAtMs := now })
          tables.manualRequests }
  | none =>
    ensure (value.contextTurns.map MeetingClaimGateTurnDto.id).Nodup .conflict
    ensure value.sourceSegmentIds.Nodup .conflict
    return { tables with
      manualRequests := tables.manualRequests ++ [row]
      contextTurns := tables.contextTurns ++
        value.contextTurns.mapIdx (ManualFactCheckContextTurnRow.ofTurn value.id)
      requestSegments := tables.requestSegments ++
        value.sourceSegmentIds.mapIdx (ManualFactCheckSegmentRow.mk value.id) }

/-- `ensure_claim_version_relationship`. -/
def ensureClaimVersionRelationship (meetingId claimId : String) (tables : ClaimTables)
    (claimVersionId : String) : Checked :=
  match lookup ClaimVersionRow.id tables.versions claimVersionId with
  | none => .error .notFound
  | some version =>
    match lookup ClaimRow.id tables.claims version.claimId with
    | none => .error .notFound
    | some claim =>
      ensure (version.claimId = claimId ∧ claim.meetingId = meetingId) .conflict

/-- No other claim of the meeting has the duplicate key. -/
def duplicateKeyIsFree (tables : ClaimTables) (meetingId claimId : String)
    (duplicateKey : Option String) : Prop :=
  ∀ key ∈ duplicateKey, ∀ claim ∈ tables.claims, claim.meetingId = meetingId →
    claim.duplicateKey = some key → claim.id = claimId

instance (tables : ClaimTables) (meetingId claimId : String) (duplicateKey : Option String) :
    Decidable (duplicateKeyIsFree tables meetingId claimId duplicateKey) :=
  inferInstanceAs (Decidable (∀ key ∈ duplicateKey, _))

/-- The claim of a version, updated or inserted. -/
def upsertClaim (now : Int) (meetingId : String) (value : MeetingClaimVersionUpsertDto)
    (tables : ClaimTables) : Change ClaimTables :=
  match lookup ClaimRow.id tables.claims value.claimId with
  | some stored => do
    ensure (stored.meetingId = meetingId ∧ stored.origin = value.origin ∧
      stored.manualRequestId = value.manualRequestId) .conflict
    ensure (duplicateKeyIsFree tables meetingId value.claimId value.duplicateKey) .conflict
    return { tables with
      claims := updateWhere (fun claim => claim.id = value.claimId)
        (fun claim =>
          { claim with
            duplicateKey := value.duplicateKey <|> claim.duplicateKey
            status := value.status
            updatedAtMs := now }) tables.claims }
  | none => do
    ensure (duplicateKeyIsFree tables meetingId value.claimId value.duplicateKey) .conflict
    return { tables with
      claims := tables.claims ++
        [{ id := value.claimId
           meetingId
           manualRequestId := value.manualRequestId
           origin := value.origin
           duplicateKey := value.duplicateKey
           status := value.status
           currentClaimVersionId := none
           createdAtMs := now
           updatedAtMs := now }] }

def ClaimVersionRow.ofUpsert (host : StoreHost) (value : MeetingClaimVersionUpsertDto)
    (now : Int) : ClaimVersionRow where
  id := value.claimVersionId
  claimId := value.claimId
  versionNumber := value.versionNumber.toNat
  predecessorId := value.predecessorId
  supersededById := value.supersededById
  sourceTranscriptVersionId := value.sourceTranscriptVersionId
  exactQuote := value.exactQuote
  normalizedClaim := value.normalizedClaim
  speakerId := value.speakerId
  startMs := value.startMs
  endMs := value.endMs
  selectionRationale := value.selectionRationale
  consequenceScore := value.consequenceScore
  disputeScore := value.disputeScore
  specificityScore := value.specificityScore
  timeSensitive := value.timeSensitive
  lifecycle := value.lifecycle
  contentHash := host.blake3 value.semantic.tokens
  createdAtMs := now

/-- The segments of a new claim version, from a given ordinal on. -/
def insertVersionSegments (meetingId claimVersionId : String) (transcript : TranscriptTables) :
    Nat → List String → ClaimTables → Change ClaimTables
  | _, [], tables => .ok tables
  | ordinal, segmentId :: rest, tables => do
    ensureMeetingSegment transcript meetingId segmentId
    ensure (∀ row ∈ tables.versionSegments,
      ¬(row.claimVersionId = claimVersionId ∧ row.segmentId = segmentId)) .database
    insertVersionSegments meetingId claimVersionId transcript (ordinal + 1) rest
      { tables with
        versionSegments := tables.versionSegments ++ [⟨claimVersionId, segmentId, ordinal⟩] }

/-- The version itself, updated when it is submitted again, or inserted. -/
def upsertClaimVersion (host : StoreHost) (now : Int) (meetingId : String)
    (transcript : TranscriptTables) (value : MeetingClaimVersionUpsertDto)
    (tables : ClaimTables) : Change ClaimTables := do
  let row := ClaimVersionRow.ofUpsert host value now
  match lookup ClaimVersionRow.id tables.versions value.claimVersionId with
  | some stored =>
    ensure (stored.claimId = row.claimId ∧ stored.versionNumber = row.versionNumber ∧
      stored.contentHash = row.contentHash) .conflict
    return { tables with
      versions := updateWhere (fun version => version.id = value.claimVersionId)
        (fun version =>
          { version with
            lifecycle := value.lifecycle
            supersededById := value.supersededById <|> version.supersededById })
        tables.versions }
  | none =>
    ensure (∀ version ∈ tables.versions, ¬(version.claimId = row.claimId ∧
      version.versionNumber = row.versionNumber)) .conflict
    insertVersionSegments meetingId value.claimVersionId transcript 0 value.segmentIds
      { tables with versions := tables.versions ++ [row] }

/-- `UPDATE claim_versions SET lifecycle = 'superseded', superseded_by_id = ? WHERE id = ?`. -/
def supersede (tables : ClaimTables) (claimVersionId successorId : String) : ClaimTables :=
  { tables with
    versions := updateWhere (fun version => version.id = claimVersionId)
      (fun version =>
        { version with lifecycle := .superseded, supersededById := some successorId })
      tables.versions }

/-- The statements under `set_current`. -/
def setCurrentVersion (now : Int) (value : MeetingClaimVersionUpsertDto) (tables : ClaimTables) :
    ClaimTables :=
  let previous := ((lookup ClaimRow.id tables.claims value.claimId).bind
    ClaimRow.currentClaimVersionId).filter (· ≠ value.claimVersionId)
  let superseded := (previous.toList ++ value.predecessorId.toList).foldl
    (fun tables versionId => supersede tables versionId value.claimVersionId) tables
  { superseded with
    claims := updateWhere (fun claim => claim.id = value.claimId)
      (fun claim =>
        { claim with
          currentClaimVersionId := some value.claimVersionId
          status := value.status
          updatedAtMs := now }) superseded.claims }

def applyClaimVersion (host : StoreHost) (now : Int) (meetingId : String) (db : MeetingsDb)
    (tables : ClaimTables) (value : MeetingClaimVersionUpsertDto) : Change ClaimTables := do
  whenPresent (fun manualRequestId =>
    ensure (∃ request ∈ tables.manualRequests, request.id = manualRequestId ∧
      request.meetingId = meetingId) .notFound) value.manualRequestId
  whenPresent (ensureSpeaker db.speakers meetingId) value.speakerId
  whenPresent (fun versionId =>
    ensure (∃ version ∈ db.transcript.versions, version.id = versionId ∧
      version.meetingId = meetingId) .notFound) value.sourceTranscriptVersionId
  forEach (ensureClaimVersionRelationship meetingId value.claimId tables)
    (value.predecessorId.toList ++ value.supersededById.toList)
  let tables ← upsertClaim now meetingId value tables
  let tables ← upsertClaimVersion host now meetingId db.transcript value tables
  return if value.setCurrent then setCurrentVersion now value tables else tables

/-- The body of the loop over the versions to mark stale. -/
def markClaimVersionStale (now : Int) (meetingId : String) (tables : ClaimTables)
    (id : String) : Change ClaimTables := do
  ensure (∃ version ∈ tables.versions, version.id = id ∧
    ∃ claim ∈ tables.claims, claim.id = version.claimId ∧ claim.meetingId = meetingId) .notFound
  return { tables with
    versions := updateWhere (fun version => version.id = id)
      (fun version => { version with lifecycle := .stale }) tables.versions
    claims := updateWhere (fun claim => claim.meetingId = meetingId ∧
        claim.currentClaimVersionId = some id)
      (fun claim => { claim with status := .stale, updatedAtMs := now }) tables.claims }

def applyClaimsChanges (host : StoreHost) (now : Int) (request : MeetingClaimsApplyRequest)
    (db : MeetingsDb) : Change (PUnit × MeetingsDb) := do
  validateClaimsRequest host request
  getMeeting db request.meetingId
  let claims ← request.manualFactCheckRequests.foldlM
    (upsertManualFactCheckRequest host now request.meetingId db) db.claims
  let claimGate ← request.beginClaimGateBatches.foldlM
    (beginClaimGateBatch request.meetingId db.transcript now) db.claimGate
  let claims ← request.claimVersions.foldlM
    (applyClaimVersion host now request.meetingId db) claims
  let claims ← request.markStaleClaimVersionIds.foldlM
    (markClaimVersionStale now request.meetingId) claims
  let claimGate ← request.completeClaimGateBatchIds.foldlM
    (completeClaimGateBatch request.meetingId now) claimGate
  return (⟨⟩, { db with claims, claimGate }.touch request.meetingId now)

/-- `apply_claims`, without the listing of the stored claims it answers with. -/
def applyClaims (host : StoreHost) (now : Int) (request : MeetingClaimsApplyRequest)
    (db : MeetingsDb) : Checked × MeetingsDb :=
  transaction (applyClaimsChanges host now request) db

/-!
## The meeting store

The store serves transcript requests and claims requests one after another,
each in its own transaction.  A run records the answer to every request.
-/

open Obelus.Transition

inductive StoreRequest
  | transcript (request : MeetingTranscriptApplyRequest)
  | claims (request : MeetingClaimsApplyRequest)

/-- A request and the time at which it is served. -/
structure Delivery where
  now : Int
  request : StoreRequest

/-- A request and what the store answered to it. -/
structure Answer where
  request : StoreRequest
  result : Checked

def serve (host : StoreHost) (delivery : Delivery) (db : MeetingsDb) : Checked × MeetingsDb :=
  match delivery.request with
  | .transcript request =>
    let (result, changed) := applyTranscript host delivery.now request db
    (result.map fun _ => ⟨⟩, changed)
  | .claims request => applyClaims host delivery.now request db

def step (host : StoreHost) : Machine MeetingsDb Delivery Answer := fun db delivery =>
  let (result, changed) := serve host delivery db
  some (changed, [⟨delivery.request, result⟩])

theorem advance_eq_some {host : StoreHost} {config next : Config MeetingsDb Answer}
    {delivery : Delivery} (advanced : advance (step host) config delivery = some next) :
    next.state = (serve host delivery config.state).2 ∧
      next.trace =
        config.trace ++ [⟨delivery.request, (serve host delivery config.state).1⟩] := by
  obtain ⟨_, stepped, traced⟩ := advance_eq_some_iff.mp advanced
  simp only [step, Option.some.injEq, Prod.mk.injEq] at stepped
  obtain ⟨changed, rfl⟩ := stepped
  exact ⟨changed.symm, traced⟩

/-- The two kinds of answers: an error and no change, or a committed change. -/
theorem serve_cases (host : StoreHost) (delivery : Delivery) (db : MeetingsDb) :
    (∃ error, serve host delivery db = (.error error, db) ∧
        match delivery.request with
        | .transcript request =>
          applyTranscriptChanges host delivery.now request db = .error error
        | .claims request => applyClaimsChanges host delivery.now request db = .error error) ∨
      ∃ changed, serve host delivery db = (.ok ⟨⟩, changed) ∧
        match delivery.request with
        | .transcript request =>
          ∃ outcomes, applyTranscriptChanges host delivery.now request db = .ok (outcomes, changed)
        | .claims request =>
          applyClaimsChanges host delivery.now request db = .ok (⟨⟩, changed) := by
  unfold serve
  cases delivery.request with
  | transcript request =>
    obtain ⟨error, served, failed⟩ | ⟨outcomes, changed, served, applied⟩ :=
      transaction_cases (applyTranscriptChanges host delivery.now request) db
    · exact .inl ⟨error, by simp [applyTranscript, served, Except.map], failed⟩
    · exact .inr ⟨changed, by simp [applyTranscript, served, Except.map], outcomes, applied⟩
  | claims request =>
    obtain ⟨error, served, failed⟩ | ⟨_, changed, served, applied⟩ :=
      transaction_cases (applyClaimsChanges host delivery.now request) db
    · exact .inl ⟨error, served, failed⟩
    · exact .inr ⟨changed, served, applied⟩

/-- A failed request leaves every row unchanged. -/
theorem serve_of_error {host : StoreHost} {delivery : Delivery} {db : MeetingsDb}
    {error : MeetingStoreError} (failed : (serve host delivery db).1 = .error error) :
    (serve host delivery db).2 = db := by
  obtain ⟨_, served, -⟩ | ⟨_, served, -⟩ := serve_cases host delivery db
  · rw [served]
  · rw [served] at failed
    cases failed

/-- Identifiers of recorded requests are well-formed, and their digests are the
texts they contain. -/
def recordedHost : StoreHost where
  isUuid := fun _ => true
  encodedLength := List.length ∘ Json.tokens
  blake3 := fun tokens => String.join (tokens.map fun token =>
    match token with
    | .string text => text
    | .number value => toString value
    | _ => "")

def recordedMeetingId : String := "0b54cf32-9a0a-4f43-9c45-7a3d0b6f6a01"

def recordedVersionId : String := "5f0c1d2e-3a4b-4c5d-8e6f-708192a3b401"

def recordedSegmentId : String := "c2a7f7de-1b7c-4c0e-9d55-0d1e2f3a4b01"

/-- A meeting without a transcript. -/
def recordedDb : MeetingsDb where
  meetings := [⟨recordedMeetingId, none, none, 0⟩]
  speakers := []
  transcript := ⟨[], [], [], []⟩
  claimGate := ⟨[], [], []⟩
  claims := ⟨[], [], [], [], [], []⟩

def recordedVersion : MeetingTranscriptVersionUpsertDto where
  id := recordedVersionId
  kind := .live
  status := .active
  revisionNumber := 1
  provider := some "assemblyai"
  model := none
  gatewayJobId := none
  parentVersionId := none
  inputAudioChecksum := none
  detectedLanguage := none
  reconciliationMetadata := none
  startedAtMs := some 0
  completedAtMs := none
  error := none

def recordedSegment (revisionNumber : UInt64) (text : String) :
    MeetingTranscriptSegmentUpsertDto where
  id := recordedSegmentId
  transcriptVersionId := recordedVersionId
  provider := "assemblyai"
  providerNamespace := "session-1"
  providerSessionId := some "session-1"
  providerTurnId := "turn-1"
  providerTurnOrder := 1
  revisionNumber
  state := .final
  speakerId := none
  sourceKind := .microphone
  startMs := 0
  endMs := 1000
  text
  words := []
  replacedLiveSegmentIds := []

def recordedTranscript (segment : MeetingTranscriptSegmentUpsertDto) : Delivery where
  now := 10
  request := .transcript
    { meetingId := recordedMeetingId
      version := recordedVersion
      segments := [segment]
      speakerObservations := []
      promoteCanonical := false }

end Obelus.Meetings
