import Obelus.Meetings.MeetingUpdates

/-!
# Audio assets

`apply_audio` checks a request and that its meeting is not deleted, and then
upserts the assets and the refinement inputs of the request in a transaction.
The transaction does not look at the deletion of the meeting again.
-/

namespace Obelus.Meetings

open Obelus.Data Validation

inductive MeetingAudioAssetStatus
  | recording
  | finalized
  | interrupted
  | missing
  | deleted
  deriving DecidableEq

inductive MeetingCleanupStatus
  | pending
  | running
  | complete
  | retryWait
  | failed
  | unavailable

structure MeetingAudioAssetUpsertDto where
  id : String
  sourceKind : MeetingAudioSourceKind
  timelinePart : UInt32
  fileName : String
  format : String
  sampleRate : UInt32
  channels : UInt16
  timelineStartMs : Int
  timelineEndMs : Option Int
  durationMs : Option Int
  bytes : Option UInt64
  checksum : Option String
  status : MeetingAudioAssetStatus

structure MeetingRefinementInputUpsertDto where
  refinementJobId : String
  partIndex : UInt32
  audioAssetId : String
  sourceKind : MeetingAudioSourceKind
  checksum : String
  meetingStartMs : Int
  meetingEndMs : Int
  providerStartMs : Int
  providerEndMs : Int
  manifestChecksum : String

structure MeetingAudioApplyRequest where
  meetingId : String
  assets : List MeetingAudioAssetUpsertDto
  replaceRefinementManifestForJobId : Option String
  refinementInputs : List MeetingRefinementInputUpsertDto

structure AudioAssetRow where
  id : String
  meetingId : String
  sourceKind : MeetingAudioSourceKind
  timelinePart : Nat
  relativePath : String
  format : String
  sampleRate : Nat
  channels : Nat
  timelineStartMs : Int
  timelineEndMs : Option Int
  durationMs : Option Int
  bytes : Option Nat
  checksum : Option String
  status : MeetingAudioAssetStatus
  createdAtMs : Int
  updatedAtMs : Int
  deriving DecidableEq

structure RefinementInputRow where
  refinementJobId : String
  partIndex : Nat
  audioAssetId : String
  sourceKind : MeetingAudioSourceKind
  checksum : String
  meetingStartMs : Int
  meetingEndMs : Int
  providerStartMs : Int
  providerEndMs : Int
  manifestChecksum : String
  createdAtMs : Int

structure RefinementJobKey where
  id : String
  meetingId : String

structure CleanupJobRow where
  id : String
  meetingId : String
  localStatus : MeetingCleanupStatus
  gatewayStatus : MeetingCleanupStatus
  providerStatus : MeetingCleanupStatus
  attemptCount : Nat
  createdAtMs : Int
  updatedAtMs : Int

structure CleanupJobAssetRow where
  cleanupJobId : String
  audioAssetId : String
  relativePath : String

/-- The tables that audio requests and deletions leave alone: the keys of the
refinement jobs, and all others. -/
structure OtherTables (κ : Type) where
  refinementJobs : List RefinementJobKey
  rest : κ

structure AudioDb (κ : Type) where
  meetings : List MeetingRecord
  audioAssets : List AudioAssetRow
  refinementInputs : List RefinementInputRow
  cleanupJobs : List CleanupJobRow
  cleanupJobAssets : List CleanupJobAssetRow
  others : OtherTables κ

def maxAssetsPerBatch : Nat := 128

/-- What `Path::components` yields for a path on a Unix system. -/
inductive PathComponent
  | rootDir
  | curDir
  | parentDir
  | normal (name : List Char)

/-- The components after the first one; empty ones and dots count for nothing. -/
def bodyComponents (parts : List (List Char)) : List PathComponent :=
  parts.filterMap fun part =>
    if part = [] ∨ part = ['.'] then none
    else if part = ['.', '.'] then some .parentDir
    else some (.normal part)

def pathComponents (path : String) : List PathComponent :=
  match path.toList.splitOn '/' with
  | [] :: rest => if path = "" then [] else .rootDir :: bodyComponents rest
  | ['.'] :: rest => .curDir :: bodyComponents rest
  | parts => bodyComponents parts

def PathComponent.isNormal : PathComponent → Bool
  | .normal _ => true
  | _ => false

def controlledFileName (value : String) : Checked := do
  nonempty value 255 "invalid audio file name"
  let components := pathComponents value
  invalid (¬(components.length = 1 ∧ components.all PathComponent.isNormal))
    "invalid audio file name"

def controlledRelativePath (value : String) : Checked :=
  ensure ((pathComponents value).all PathComponent.isNormal) (.validation "invalid controlled path")

def isFormatCharacter (c : Char) : Bool :=
  c.isAlphanum || c = '-' || c = '_'

def validateAudioAsset (host : StoreHost) (value : MeetingAudioAssetUpsertDto) : Checked := do
  uuid host value.id
  controlledFileName value.fileName
  nonempty value.format 32 "invalid audio format"
  ensure (value.format.toList.all isFormatCharacter) (.validation "invalid audio format")
  invalid (value.sampleRate = 0 ∨ 384000 < value.sampleRate ∨ value.channels = 0 ∨
    32 < value.channels) "invalid audio format metadata"
  timestampRange value.timelineStartMs value.timelineEndMs
  invalid (∃ duration ∈ value.durationMs, duration < 0) "invalid audio duration"
  optional value.checksum 256 "invalid audio checksum"

def validateRefinementInput (host : StoreHost) (value : MeetingRefinementInputUpsertDto) :
    Checked := do
  uuid host value.refinementJobId
  uuid host value.audioAssetId
  nonempty value.checksum 256 "invalid refinement input checksum"
  nonempty value.manifestChecksum 256 "invalid refinement manifest checksum"
  timestampRange value.meetingStartMs (some value.meetingEndMs)
  timestampRange value.providerStartMs (some value.providerEndMs)

/-- The checks before the transaction; the read of the meeting stands between
those of the batch and those of its parts. -/
def checkAudio (host : StoreHost) (request : MeetingAudioApplyRequest)
    (meetings : List MeetingRecord) : Checked := do
  uuid host request.meetingId
  invalid (maxAssetsPerBatch < request.assets.length ∨
    maxAssetsPerBatch < request.refinementInputs.length) "audio metadata batch is too large"
  let _ ← readMeeting meetings request.meetingId
  forEach (validateAudioAsset host) request.assets
  whenPresent (uuid host) request.replaceRefinementManifestForJobId
  forEach (validateRefinementInput host) request.refinementInputs

section Transaction

variable {κ : Type}

def audioPath (meetingId fileName : String) : String :=
  "audio/" ++ meetingId ++ "/" ++ fileName

def assetRow (meetingId : String) (now : Int) (asset : MeetingAudioAssetUpsertDto) :
    AudioAssetRow where
  id := asset.id
  meetingId := meetingId
  sourceKind := asset.sourceKind
  timelinePart := asset.timelinePart.toNat
  relativePath := audioPath meetingId asset.fileName
  format := asset.format
  sampleRate := asset.sampleRate.toNat
  channels := asset.channels.toNat
  timelineStartMs := asset.timelineStartMs
  timelineEndMs := asset.timelineEndMs
  durationMs := asset.durationMs
  bytes := asset.bytes.map UInt64.toNat
  checksum := asset.checksum
  status := asset.status
  createdAtMs := now
  updatedAtMs := now

/-- What `apply_audio` calls the identity of an asset besides its identifier. -/
def AudioAssetRow.SameIdentity (row other : AudioAssetRow) : Prop :=
  row.meetingId = other.meetingId ∧ row.sourceKind = other.sourceKind ∧
    row.timelinePart = other.timelinePart ∧ row.relativePath = other.relativePath

instance (row other : AudioAssetRow) : Decidable (row.SameIdentity other) :=
  inferInstanceAs (Decidable (_ ∧ _ ∧ _ ∧ _))

/-- `ON CONFLICT(id) DO UPDATE`. -/
def mergeAsset (row stored : AudioAssetRow) : AudioAssetRow :=
  { stored with
    format := row.format
    sampleRate := row.sampleRate
    channels := row.channels
    timelineEndMs := row.timelineEndMs
    durationMs := row.durationMs
    bytes := row.bytes
    checksum := row.checksum
    status := row.status
    updatedAtMs := row.updatedAtMs }

/-- The constraints of the table on the row an upsert leaves. -/
def AudioDb.AcceptsAsset (db : AudioDb κ) (row : AudioAssetRow) : Prop :=
  (∃ meeting ∈ db.meetings, meeting.id = row.meetingId) ∧
    (∀ other ∈ db.audioAssets, other.id ≠ row.id → ¬other.SameIdentity row) ∧
      ∀ stored ∈ lookup AudioAssetRow.id db.audioAssets row.id,
        ∀ finish ∈ row.timelineEndMs, stored.timelineStartMs ≤ finish

instance (db : AudioDb κ) (row : AudioAssetRow) : Decidable (db.AcceptsAsset row) :=
  inferInstanceAs (Decidable (_ ∧ _ ∧ _))

def upsertAsset (meetingId : String) (now : Int) (db : AudioDb κ)
    (asset : MeetingAudioAssetUpsertDto) : Except MeetingStoreError (AudioDb κ) := do
  let row := assetRow meetingId now asset
  controlledRelativePath row.relativePath
  ensure (∀ stored ∈ lookup AudioAssetRow.id db.audioAssets asset.id, stored.SameIdentity row)
    .conflict
  invalid (∃ bytes ∈ asset.bytes, 2 ^ 63 ≤ bytes.toNat) "audio byte count is too large"
  ensure (db.AcceptsAsset row) .database
  return { db with audioAssets := upsertRow AudioAssetRow.id mergeAsset db.audioAssets row }

def ensureRefinementJob (db : AudioDb κ) (meetingId jobId : String) : Checked :=
  ensure (∃ job ∈ db.others.refinementJobs, job.id = jobId ∧ job.meetingId = meetingId) .notFound

def inputRow (now : Int) (input : MeetingRefinementInputUpsertDto) : RefinementInputRow where
  refinementJobId := input.refinementJobId
  partIndex := input.partIndex.toNat
  audioAssetId := input.audioAssetId
  sourceKind := input.sourceKind
  checksum := input.checksum
  meetingStartMs := input.meetingStartMs
  meetingEndMs := input.meetingEndMs
  providerStartMs := input.providerStartMs
  providerEndMs := input.providerEndMs
  manifestChecksum := input.manifestChecksum
  createdAtMs := now

def upsertInput (meetingId : String) (now : Int) (db : AudioDb κ)
    (input : MeetingRefinementInputUpsertDto) : Except MeetingStoreError (AudioDb κ) := do
  ensureRefinementJob db meetingId input.refinementJobId
  ensure (∃ asset ∈ db.audioAssets, asset.id = input.audioAssetId ∧ asset.meetingId = meetingId)
    .notFound
  return { db with
    refinementInputs := upsertRow (fun row => (row.refinementJobId, row.partIndex))
      (fun row stored => { row with createdAtMs := stored.createdAtMs })
      db.refinementInputs (inputRow now input) }

def replaceManifest (meetingId : String) (db : AudioDb κ) :
    Option String → Except MeetingStoreError (AudioDb κ)
  | none => .ok db
  | some jobId => do
    ensureRefinementJob db meetingId jobId
    return { db with
      refinementInputs := db.refinementInputs.filter fun row => row.refinementJobId ≠ jobId }

/-- `UPDATE meetings SET updated_at_ms = ? WHERE id = ?`, also on a deleted one. -/
def touchMeeting (meetingId : String) (now : Int) (db : AudioDb κ) : AudioDb κ :=
  { db with
    meetings := updateWhere (fun row => row.id = meetingId)
      (fun row => { row with updatedAtMs := now }) db.meetings }

def applyAudio (request : MeetingAudioApplyRequest) (now : Int) (db : AudioDb κ) :
    Except MeetingStoreError (AudioDb κ) := do
  let db ← request.assets.foldlM (upsertAsset request.meetingId now) db
  let db ← replaceManifest request.meetingId db request.replaceRefinementManifestForJobId
  let db ← request.refinementInputs.foldlM (upsertInput request.meetingId now) db
  return touchMeeting request.meetingId now db

end Transaction

end Obelus.Meetings
