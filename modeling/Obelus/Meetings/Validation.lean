import Mathlib.Algebra.GroupWithZero.Nat
import Mathlib.Algebra.Order.Ring.Rat
import Obelus.Data.Fallible
import Obelus.Data.Json

/-!
# Requests to the meeting store

The parts of a transcript request and of a claims request, and the 64 bit
integers they carry.  The store keeps integers as signed numbers; a revision
arrives unsigned and is cast.
-/

namespace Obelus.Meetings

open Obelus.Data

/-- The cast of an unsigned 64 bit number to a signed one. -/
def asI64 (number : UInt64) : Int :=
  if number.toNat < 2 ^ 63 then number.toNat else number.toNat - 2 ^ 64

/-- The cast back of a stored number, negative ones cut off at zero. -/
def maxZeroAsU64 (number : Int) : UInt64 :=
  UInt64.ofNat number.toNat

theorem asI64_of_lt {number : UInt64} (small : number.toNat < 2 ^ 63) :
    asI64 number = number.toNat :=
  if_pos small

theorem maxZeroAsU64_asI64 {number : UInt64} (small : number.toNat < 2 ^ 63) :
    maxZeroAsU64 (asI64 number) = number := by
  rw [asI64_of_lt small, maxZeroAsU64, Int.toNat_natCast, UInt64.ofNat_toNat]

inductive MeetingTranscriptVersionKind
  | live
  | refined
  deriving DecidableEq

inductive MeetingTranscriptVersionStatus
  | active
  | processing
  | complete
  | failed
  | superseded
  deriving DecidableEq

inductive MeetingTranscriptSegmentState
  | partialText
  | final
  | revised
  | superseded
  deriving DecidableEq

inductive MeetingAudioSourceKind
  | mixed
  | microphone
  | system
  | text
  deriving DecidableEq

inductive MeetingClaimOrigin
  | automatic
  | manual
  deriving DecidableEq

inductive MeetingClaimStatus
  | detected
  | queued
  | quickRunning
  | preliminary
  | deepRunning
  | complete
  | stale
  | rechecking
  | failed
  | cancelled
  | superseded
  deriving DecidableEq

inductive MeetingClaimVersionLifecycle
  | active
  | stale
  | rechecking
  | superseded
  deriving DecidableEq

inductive MeetingManualFactCheckRequestStatus
  | queued
  | processing
  | retryWait
  | complete
  | failed
  deriving DecidableEq

inductive MeetingUpsertOutcomeKind
  | inserted
  | revised
  | duplicate
  | staleIgnored
  deriving DecidableEq

structure MeetingTypedErrorDto where
  code : String
  message : String
  retryable : Bool
  deriving DecidableEq

structure MeetingUpsertOutcomeDto where
  id : String
  outcome : MeetingUpsertOutcomeKind

structure MeetingTranscriptVersionUpsertDto where
  id : String
  kind : MeetingTranscriptVersionKind
  status : MeetingTranscriptVersionStatus
  revisionNumber : UInt64
  provider : Option String
  model : Option String
  gatewayJobId : Option String
  parentVersionId : Option String
  inputAudioChecksum : Option String
  detectedLanguage : Option String
  reconciliationMetadata : Option Json
  startedAtMs : Option Int
  completedAtMs : Option Int
  error : Option MeetingTypedErrorDto

structure MeetingTimedWordDto where
  text : String
  startMs : Int
  endMs : Int
  confidence : Option ℚ
  providerSpeakerLabel : Option String
  deriving DecidableEq

structure MeetingTranscriptSegmentUpsertDto where
  id : String
  transcriptVersionId : String
  provider : String
  providerNamespace : String
  providerSessionId : Option String
  providerTurnId : String
  providerTurnOrder : Int
  revisionNumber : UInt64
  state : MeetingTranscriptSegmentState
  speakerId : Option String
  sourceKind : MeetingAudioSourceKind
  startMs : Int
  endMs : Int
  text : String
  words : List MeetingTimedWordDto
  replacedLiveSegmentIds : List String
  deriving DecidableEq

structure MeetingSpeakerObservationUpsertDto where
  id : String
  transcriptVersionId : String
  speakerId : Option String
  provider : String
  providerNamespace : String
  providerSpeakerLabel : String
  confidence : Option ℚ
  ambiguous : Bool
  revisionNumber : UInt64
  sourceHint : Option MeetingAudioSourceKind

structure MeetingTranscriptApplyRequest where
  meetingId : String
  version : MeetingTranscriptVersionUpsertDto
  segments : List MeetingTranscriptSegmentUpsertDto
  speakerObservations : List MeetingSpeakerObservationUpsertDto
  promoteCanonical : Bool

structure MeetingClaimGateTurnDto where
  id : String
  speakerId : Option String
  startMs : Int
  endMs : Int
  text : String
  revisionNumber : UInt64
  sourceKind : MeetingAudioSourceKind
  deriving DecidableEq

structure MeetingClaimGateBatchBeginDto where
  id : String
  idempotencyKey : String
  turns : List MeetingClaimGateTurnDto
  deriving DecidableEq

structure MeetingManualFactCheckRequestUpsertDto where
  id : String
  exactSelection : String
  contextTurns : List MeetingClaimGateTurnDto
  sourceSegmentIds : List String
  speakerId : Option String
  startMs : Option Int
  endMs : Option Int
  status : MeetingManualFactCheckRequestStatus
  error : Option MeetingTypedErrorDto
  deriving DecidableEq

structure MeetingClaimVersionUpsertDto where
  claimId : String
  claimVersionId : String
  manualRequestId : Option String
  origin : MeetingClaimOrigin
  duplicateKey : Option String
  status : MeetingClaimStatus
  versionNumber : UInt32
  predecessorId : Option String
  supersededById : Option String
  sourceTranscriptVersionId : Option String
  exactQuote : String
  normalizedClaim : String
  speakerId : Option String
  startMs : Option Int
  endMs : Option Int
  segmentIds : List String
  selectionRationale : Option String
  consequenceScore : Option ℚ
  disputeScore : Option ℚ
  specificityScore : Option ℚ
  timeSensitive : Bool
  lifecycle : MeetingClaimVersionLifecycle
  setCurrent : Bool
  deriving DecidableEq

structure MeetingClaimsApplyRequest where
  meetingId : String
  manualFactCheckRequests : List MeetingManualFactCheckRequestUpsertDto
  claimVersions : List MeetingClaimVersionUpsertDto
  markStaleClaimVersionIds : List String
  beginClaimGateBatches : List MeetingClaimGateBatchBeginDto
  completeClaimGateBatchIds : List String
  deriving DecidableEq

/-- The name serialization gives a value. -/
def MeetingAudioSourceKind.name : MeetingAudioSourceKind → String
  | .mixed => "mixed"
  | .microphone => "microphone"
  | .system => "system"
  | .text => "text"

def MeetingTranscriptSegmentState.name : MeetingTranscriptSegmentState → String
  | .partialText => "partial"
  | .final => "final"
  | .revised => "revised"
  | .superseded => "superseded"

def optionalJson {α : Type} (json : α → Json) : Option α → Json
  | none => .null
  | some value => json value

def MeetingTimedWordDto.toJson (word : MeetingTimedWordDto) : Json :=
  .object
    [("text", .string word.text),
      ("startMs", .number word.startMs),
      ("endMs", .number word.endMs),
      ("confidence", optionalJson .number word.confidence),
      ("providerSpeakerLabel", optionalJson .string word.providerSpeakerLabel)]

def MeetingTranscriptSegmentUpsertDto.toJson (value : MeetingTranscriptSegmentUpsertDto) : Json :=
  .object
    [("id", .string value.id),
      ("transcriptVersionId", .string value.transcriptVersionId),
      ("provider", .string value.provider),
      ("providerNamespace", .string value.providerNamespace),
      ("providerSessionId", optionalJson .string value.providerSessionId),
      ("providerTurnId", .string value.providerTurnId),
      ("providerTurnOrder", .number value.providerTurnOrder),
      ("revisionNumber", .number value.revisionNumber.toNat),
      ("state", .string value.state.name),
      ("speakerId", optionalJson .string value.speakerId),
      ("sourceKind", .string value.sourceKind.name),
      ("startMs", .number value.startMs),
      ("endMs", .number value.endMs),
      ("text", .string value.text),
      ("words", .array (value.words.map MeetingTimedWordDto.toJson)),
      ("replacedLiveSegmentIds", .array (value.replacedLiveSegmentIds.map .string))]

def MeetingClaimGateTurnDto.toJson (turn : MeetingClaimGateTurnDto) : Json :=
  .object
    [("id", .string turn.id),
      ("speakerId", optionalJson .string turn.speakerId),
      ("startMs", .number turn.startMs),
      ("endMs", .number turn.endMs),
      ("text", .string turn.text),
      ("revisionNumber", .number turn.revisionNumber.toNat),
      ("sourceKind", .string turn.sourceKind.name)]

/-- What `manual_fact_check_request_hash` hashes. -/
def MeetingManualFactCheckRequestUpsertDto.semantic
    (value : MeetingManualFactCheckRequestUpsertDto) : Json :=
  .object
    [("exactSelection", .string value.exactSelection),
      ("contextTurns", .array (value.contextTurns.map MeetingClaimGateTurnDto.toJson)),
      ("sourceSegmentIds", .array (value.sourceSegmentIds.map .string)),
      ("speakerId", optionalJson .string value.speakerId),
      ("startMs", optionalJson (fun time => .number time) value.startMs),
      ("endMs", optionalJson (fun time => .number time) value.endMs)]

/-- What `claim_version_hash` hashes. -/
def MeetingClaimVersionUpsertDto.semantic (value : MeetingClaimVersionUpsertDto) : Json :=
  .object
    [("claimId", .string value.claimId),
      ("manualRequestId", optionalJson .string value.manualRequestId),
      ("versionNumber", .number value.versionNumber.toNat),
      ("predecessorId", optionalJson .string value.predecessorId),
      ("sourceTranscriptVersionId", optionalJson .string value.sourceTranscriptVersionId),
      ("exactQuote", .string value.exactQuote),
      ("normalizedClaim", .string value.normalizedClaim),
      ("speakerId", optionalJson .string value.speakerId),
      ("startMs", optionalJson (fun time => .number time) value.startMs),
      ("endMs", optionalJson (fun time => .number time) value.endMs),
      ("segmentIds", .array (value.segmentIds.map .string)),
      ("selectionRationale", optionalJson .string value.selectionRationale),
      ("consequenceScore", optionalJson .number value.consequenceScore),
      ("disputeScore", optionalJson .number value.disputeScore),
      ("specificityScore", optionalJson .number value.specificityScore),
      ("timeSensitive", .bool value.timeSensitive)]

/-!
## Validation of requests

The checks a request passes before the store opens a transaction, in the order
in which their errors are reported.
-/

inductive MeetingStoreError
  | validation (message : String)
  | notFound
  | conflict
  | database
  deriving DecidableEq

/-- What the store takes from its libraries: the test of an identifier, the
length of serialized JSON, and the digest of serialized JSON. -/
structure StoreHost where
  isUuid : String → Bool
  encodedLength : Json → Nat
  blake3 : List JsonToken → String

abbrev Checked :=
  Except MeetingStoreError Unit

namespace Validation

def maxTextBytes : Nat := 64 * 1024
def maxClaimBytes : Nat := 16 * 1024
def maxMetadataBytes : Nat := 256 * 1024
def maxSegmentsPerBatch : Nat := 256
def maxWordsPerSegment : Nat := 4096
def maxClaimsPerBatch : Nat := 64

/-- The length of a text in bytes. -/
def byteLength (text : String) : Nat :=
  (text.toList.map Char.utf8Size).sum

/-- The white space that `trim` removes. -/
def isWhitespace (c : Char) : Bool :=
  c.val ∈ [0x9, 0xA, 0xB, 0xC, 0xD, 0x20, 0x85, 0xA0, 0x1680, 0x2028, 0x2029, 0x202F, 0x205F,
    0x3000] || (0x2000 ≤ c.val && c.val ≤ 0x200A)

def invalid (condition : Prop) [Decidable condition] (message : String) : Checked :=
  ensure (¬condition) (.validation message)

@[simp]
theorem invalid_eq_ok_iff {condition : Prop} [Decidable condition] {message : String}
    {result : Unit} : invalid condition message = .ok result ↔ ¬condition :=
  ensure_eq_ok_iff

/-- A check of an optional value. -/
def whenPresent {α : Type} (check : α → Checked) : Option α → Checked
  | none => .ok ⟨⟩
  | some value => check value

def forEach {α : Type} (check : α → Checked) (values : List α) : Checked :=
  values.foldlM (fun _ value => check value) ⟨⟩

theorem forEach_eq_ok_iff {α : Type} {check : α → Checked} {values : List α} :
    forEach check values = .ok ⟨⟩ ↔ ∀ value ∈ values, check value = .ok ⟨⟩ := by
  induction values with
  | nil => simp [forEach, pure, Except.pure]
  | cons value rest ih =>
    rw [List.forall_mem_cons, ← ih, forEach, List.foldlM_cons, bind_eq_ok_iff]
    exact ⟨fun ⟨_, first, others⟩ => ⟨first, others⟩, fun ⟨first, others⟩ => ⟨_, first, others⟩⟩

def uuid (host : StoreHost) (value : String) : Checked :=
  ensure (host.isUuid value) (.validation "invalid identifier")

def nonempty (value : String) (max : Nat) (message : String) : Checked :=
  invalid (value.toList.all isWhitespace ∨ max < byteLength value ∨ '\x00' ∈ value.toList) message

def optional (value : Option String) (max : Nat) (message : String) : Checked :=
  whenPresent (fun value => invalid (max < byteLength value ∨ '\x00' ∈ value.toList) message)
    value

def timestampRange (start : Int) (finish : Option Int) : Checked :=
  invalid (start < 0 ∨ ∃ time ∈ finish, time < start) "invalid timestamp range"

def score (score : Option ℚ) : Checked :=
  invalid (∃ value ∈ score, ¬(0 ≤ value ∧ value ≤ 1)) "invalid score"

def jsonSize (host : StoreHost) (value : Option Json) : Checked :=
  whenPresent (fun value =>
    invalid (maxMetadataBytes < host.encodedLength value) "metadata is too large") value

/-- One timed word of a segment; the result is the start the next word must
not precede. -/
def word (segmentStart segmentEnd previousStart : Int) (word : MeetingTimedWordDto) :
    Except MeetingStoreError Int := do
  nonempty word.text 1024 "invalid timed word"
  invalid (word.startMs < segmentStart ∨ word.endMs < word.startMs ∨
    segmentEnd < word.endMs ∨ word.startMs < previousStart) "invalid timed word range"
  score word.confidence
  optional word.providerSpeakerLabel 256 "invalid provider speaker label"
  return word.startMs

def words (words : List MeetingTimedWordDto) (segmentStart segmentEnd : Int) : Checked := do
  invalid (maxWordsPerSegment < words.length) "too many timed words"
  let _ ← words.foldlM (word segmentStart segmentEnd) segmentStart

def typedError (value : Option MeetingTypedErrorDto) : Checked :=
  whenPresent (fun value => do
    nonempty value.code 128 "invalid error code"
    nonempty value.message 1024 "invalid error message") value

end Validation

open Validation

def validateTranscriptVersion (host : StoreHost) (value : MeetingTranscriptVersionUpsertDto) :
    Checked := do
  uuid host value.id
  invalid (value.revisionNumber = 0) "invalid transcript version revision"
  whenPresent (uuid host) value.parentVersionId
  optional value.provider 128 "invalid transcript provider"
  optional value.model 256 "invalid transcript model"
  optional value.gatewayJobId 512 "invalid gateway job identifier"
  optional value.inputAudioChecksum 256 "invalid audio checksum"
  optional value.detectedLanguage 64 "invalid detected language"
  jsonSize host value.reconciliationMetadata
  typedError value.error
  invalid ((∃ time ∈ value.startedAtMs, time < 0) ∨ (∃ time ∈ value.completedAtMs, time < 0) ∨
    ∃ start ∈ value.startedAtMs, ∃ finish ∈ value.completedAtMs, finish < start)
    "invalid transcript version timestamps"

def validateTranscriptSegment (host : StoreHost) (versionId : String)
    (value : MeetingTranscriptSegmentUpsertDto) : Checked := do
  uuid host value.id
  invalid (value.transcriptVersionId ≠ versionId) "segment transcript version mismatch"
  invalid (value.state = .partialText) "partial transcript segments are not durable"
  nonempty value.provider 128 "invalid transcript provider"
  nonempty value.providerNamespace 256 "invalid provider namespace"
  optional value.providerSessionId 256 "invalid provider session identifier"
  nonempty value.providerTurnId 256 "invalid provider turn identifier"
  whenPresent (uuid host) value.speakerId
  timestampRange value.startMs (some value.endMs)
  nonempty value.text maxTextBytes "invalid transcript text"
  words value.words value.startMs value.endMs
  invalid (maxSegmentsPerBatch < value.replacedLiveSegmentIds.length)
    "too many replacement segment references"
  forEach (uuid host) value.replacedLiveSegmentIds

def validateSpeakerObservation (host : StoreHost) (versionId : String)
    (value : MeetingSpeakerObservationUpsertDto) : Checked := do
  uuid host value.id
  invalid (value.transcriptVersionId ≠ versionId) "speaker observation transcript version mismatch"
  whenPresent (uuid host) value.speakerId
  nonempty value.provider 128 "invalid speaker observation provider"
  nonempty value.providerNamespace 256 "invalid speaker observation namespace"
  nonempty value.providerSpeakerLabel 256 "invalid provider speaker label"
  score value.confidence

def validateTranscriptRequest (host : StoreHost) (request : MeetingTranscriptApplyRequest) :
    Checked := do
  uuid host request.meetingId
  validateTranscriptVersion host request.version
  invalid (maxSegmentsPerBatch < request.segments.length ∨
    maxSegmentsPerBatch < request.speakerObservations.length) "transcript batch is too large"
  forEach (validateTranscriptSegment host request.version.id) request.segments
  forEach (validateSpeakerObservation host request.version.id) request.speakerObservations

def maxI64 : Nat :=
  2 ^ 63 - 1

/-- The checks a turn of a claim gate batch and a context turn share. -/
def validateTurnRange (host : StoreHost) (turn : MeetingClaimGateTurnDto) (message : String) :
    Checked := do
  uuid host turn.id
  whenPresent (uuid host) turn.speakerId
  timestampRange turn.startMs (some turn.endMs)
  nonempty turn.text maxTextBytes message

/-- The optional time range of a claim or of a manual request. -/
def validateOptionalRange (start finish : Option Int) (message : String) : Checked :=
  match start, finish with
  | some start, finish => timestampRange start finish
  | none, some _ => .error (.validation message)
  | none, none => .ok ⟨⟩

/-- Check the turns of a list whose identifiers were seen before. -/
def validateContextTurns (host : StoreHost) :
    List String → List MeetingClaimGateTurnDto → Checked
  | _, [] => .ok ⟨⟩
  | seen, turn :: rest => do
    validateTurnRange host turn "invalid manual fact-check context turn"
    invalid (maxI64 < turn.revisionNumber.toNat ∨ turn.id ∈ seen)
      "invalid manual fact-check context turn"
    validateContextTurns host (turn.id :: seen) rest

def validateSourceSegments (host : StoreHost) : List String → List String → Checked
  | _, [] => .ok ⟨⟩
  | seen, segmentId :: rest => do
    uuid host segmentId
    invalid (segmentId ∈ seen) "duplicate manual fact-check source segment"
    validateSourceSegments host (segmentId :: seen) rest

def validateManualFactCheckRequest (host : StoreHost)
    (value : MeetingManualFactCheckRequestUpsertDto) : Checked := do
  uuid host value.id
  nonempty value.exactSelection maxTextBytes "invalid manual fact-check selection"
  invalid (value.contextTurns = [] ∨ maxSegmentsPerBatch < value.contextTurns.length ∨
    maxSegmentsPerBatch < value.sourceSegmentIds.length) "manual fact-check context is too large"
  whenPresent (uuid host) value.speakerId
  validateOptionalRange value.startMs value.endMs "invalid manual fact-check timestamp range"
  typedError value.error
  invalid (value.status = .complete ∧ value.error.isSome)
    "completed manual fact-check request cannot have an error"
  validateContextTurns host [] value.contextTurns
  validateSourceSegments host [] value.sourceSegmentIds

def validateClaimVersion (host : StoreHost) (value : MeetingClaimVersionUpsertDto) :
    Checked := do
  uuid host value.claimId
  uuid host value.claimVersionId
  whenPresent (fun manualRequestId => do
    uuid host manualRequestId
    invalid (value.origin ≠ .manual) "automatic claim cannot reference a manual request")
    value.manualRequestId
  invalid (value.versionNumber = 0) "invalid claim version number"
  whenPresent (uuid host) value.predecessorId
  whenPresent (uuid host) value.supersededById
  whenPresent (uuid host) value.sourceTranscriptVersionId
  whenPresent (uuid host) value.speakerId
  optional value.duplicateKey 512 "invalid claim duplicate key"
  nonempty value.exactQuote maxClaimBytes "invalid claim quote"
  nonempty value.normalizedClaim maxClaimBytes "invalid normalized claim"
  optional value.selectionRationale 2048 "invalid claim selection rationale"
  score value.consequenceScore
  score value.disputeScore
  score value.specificityScore
  validateOptionalRange value.startMs value.endMs "invalid claim timestamp range"
  invalid (maxSegmentsPerBatch < value.segmentIds.length) "too many claim segment references"
  forEach (uuid host) value.segmentIds

def validateBatchTurns (host : StoreHost) :
    List String → List MeetingClaimGateTurnDto → Checked
  | _, [] => .ok ⟨⟩
  | seen, turn :: rest => do
    validateTurnRange host turn "invalid claim gate turn text"
    invalid (maxI64 < turn.revisionNumber.toNat) "invalid claim gate turn revision"
    invalid (turn.id ∈ seen) "duplicate claim gate segment"
    validateBatchTurns host (turn.id :: seen) rest

def validateBatches (host : StoreHost) :
    List String → List String → List MeetingClaimGateBatchBeginDto → Checked
  | _, _, [] => .ok ⟨⟩
  | batchIds, idempotencyKeys, batch :: rest => do
    uuid host batch.id
    nonempty batch.idempotencyKey 512 "invalid claim gate idempotency key"
    invalid (batch.turns = [] ∨ maxSegmentsPerBatch < batch.turns.length)
      "invalid claim gate batch segments"
    invalid (batch.id ∈ batchIds ∨ batch.idempotencyKey ∈ idempotencyKeys)
      "duplicate claim gate batch"
    validateBatchTurns host [] batch.turns
    validateBatches host (batch.id :: batchIds) (batch.idempotencyKey :: idempotencyKeys) rest

theorem validateBatchTurns_eq_ok {host : StoreHost} {seen : List String}
    {turns : List MeetingClaimGateTurnDto} (valid : validateBatchTurns host seen turns = .ok ⟨⟩) :
    ∀ turn ∈ turns, turn.revisionNumber.toNat ≤ maxI64 := by
  induction turns generalizing seen with
  | nil => exact nofun
  | cons turn rest ih =>
    simp only [validateBatchTurns, bind_eq_ok_iff, invalid_eq_ok_iff, not_lt] at valid
    obtain ⟨-, -, -, inRange, -, -, others⟩ := valid
    exact List.forall_mem_cons.mpr ⟨inRange, ih others⟩

theorem validateBatches_eq_ok {host : StoreHost} {batchIds idempotencyKeys : List String}
    {batches : List MeetingClaimGateBatchBeginDto}
    (valid : validateBatches host batchIds idempotencyKeys batches = .ok ⟨⟩) :
    ∀ batch ∈ batches, ∀ turn ∈ batch.turns, turn.revisionNumber.toNat ≤ maxI64 := by
  induction batches generalizing batchIds idempotencyKeys with
  | nil => exact nofun
  | cons batch rest ih =>
    simp only [validateBatches, bind_eq_ok_iff] at valid
    obtain ⟨_, -, _, -, _, -, _, -, _, turns, others⟩ := valid
    exact List.forall_mem_cons.mpr ⟨validateBatchTurns_eq_ok turns, ih others⟩

def validateClaimsRequest (host : StoreHost) (request : MeetingClaimsApplyRequest) :
    Checked := do
  uuid host request.meetingId
  invalid (maxClaimsPerBatch < request.claimVersions.length ∨
    maxClaimsPerBatch < request.manualFactCheckRequests.length ∨
    maxClaimsPerBatch < request.markStaleClaimVersionIds.length ∨
    maxClaimsPerBatch < request.beginClaimGateBatches.length ∨
    maxClaimsPerBatch < request.completeClaimGateBatchIds.length) "claim batch is too large"
  forEach (validateManualFactCheckRequest host) request.manualFactCheckRequests
  forEach (validateClaimVersion host) request.claimVersions
  forEach (uuid host) request.markStaleClaimVersionIds
  validateBatches host [] [] request.beginClaimGateBatches
  forEach (uuid host) request.completeClaimGateBatchIds

/-- The revisions of the turns of a valid request fit the columns. -/
theorem revisions_of_validateClaimsRequest {host : StoreHost}
    {request : MeetingClaimsApplyRequest} (valid : validateClaimsRequest host request = .ok ⟨⟩) :
    ∀ batch ∈ request.beginClaimGateBatches, ∀ turn ∈ batch.turns,
      turn.revisionNumber.toNat ≤ maxI64 := by
  simp only [validateClaimsRequest, bind_eq_ok_iff] at valid
  obtain ⟨_, -, _, -, _, -, _, -, _, -, _, batches, -⟩ := valid
  exact validateBatches_eq_ok batches

end Obelus.Meetings
