import Obelus.Data.Parts
import Obelus.Meetings.RefinementEffects

/-!
# Refinement results delivered again

A result either changes nothing or is applied in full.  Nothing in the store
remembers that a result was applied: a second delivery writes the statuses and
the versions of the first one again.  It leaves the claims as they are while
everything the first delivery wrote is still in place, and undoes what research
has made of a claim since.
-/

namespace Obelus.Meetings

open Obelus.Data
open List hiding lookup
open Obelus.Transition

inductive RefinementAction
  | store (delivery : Delivery)
  | research (now : Int) (request : MeetingResearchApplyRequest)
  | job (now : Int) (request : MeetingRefinementJobApplyRequest)
  | result (now : Int) (request : MeetingRefinementResultApplyRequest)

/-- A delivery of a result, with the store before and after it. -/
structure ResultDelivery where
  request : MeetingRefinementResultApplyRequest
  before : RefinementDb
  result : Change (List MeetingUpsertOutcomeDto)
  after : RefinementDb

/-- The store serves requests one after another and records the results. -/
def serveRefinement (host : ResearchHost) :
    Machine RefinementDb RefinementAction ResultDelivery := fun db action =>
  match action with
  | .store delivery =>
    some ({ db with toMeetingsDb := (serve host.toStoreHost delivery db.toMeetingsDb).2 }, [])
  | .research now request =>
    some ({ db with toResearchDb := (applyResearch host now request db.toResearchDb).2 }, [])
  | .job now request => some ((applyRefinementJob host.toStoreHost now request db).2, [])
  | .result now request =>
    let served := applyRefinementResult host.toStoreHost now request db
    some (served.2, [⟨request, db, served.1, served.2⟩])

/-- The statuses of the claims, the canonical transcript pointers and the claim
versions are the same. -/
structure SameClaims (before after : RefinementDb) : Prop where
  statuses : after.claims.claims.map (fun claim => (claim.id, claim.status)) =
    before.claims.claims.map fun claim => (claim.id, claim.status)
  canonical : after.meetings.map (fun meeting =>
      (meeting.id, meeting.canonicalTranscriptVersionId)) =
    before.meetings.map fun meeting => (meeting.id, meeting.canonicalTranscriptVersionId)
  versions : after.claims.versions = before.claims.versions
  versionSegments : after.claims.versionSegments = before.claims.versionSegments

/-- A delivery fails and changes nothing, or is applied in full. -/
def ResultDelivery.IsAtomic (host : StoreHost) (delivery : ResultDelivery) : Prop :=
  (∃ error, delivery.result = .error error ∧ delivery.after = delivery.before) ∨
    ∃ outcomes now, delivery.result = .ok outcomes ∧
      AppliedInFull host now delivery.request delivery.before delivery.after

/-- A request was delivered before and succeeded. -/
def SucceededBefore (deliveries : List ResultDelivery)
    (request : MeetingRefinementResultApplyRequest) : Prop :=
  ∃ earlier ∈ deliveries, earlier.request = request ∧ ∃ outcomes, earlier.result = .ok outcomes

/-- Results are applied atomically and may be delivered again. -/
structure SafeToRedeliver (host : StoreHost) (config : Config RefinementDb ResultDelivery) :
    Prop where
  atomic : ∀ delivery ∈ config.trace, delivery.IsAtomic host
  unchanged : ∀ earlier delivery later, config.trace = earlier ++ delivery :: later →
    SucceededBefore earlier delivery.request → SameClaims delivery.before delivery.after

/-- Any requests in any order. -/
def anyRefinement : Guard RefinementDb RefinementAction ResultDelivery :=
  fun _ _ _ => True

/-- What a result wrote is still in place. -/
structure StillInPlace (request : MeetingRefinementResultApplyRequest) (db : RefinementDb) :
    Prop where
  canonical : ∀ meeting ∈ db.meetings, meeting.id = request.meetingId →
    meeting.deletedAtMs = none →
      meeting.canonicalTranscriptVersionId = some request.version.id
  rechecking : ∀ value ∈ request.replacementClaimVersions, ∀ claim ∈ db.claims.claims,
    claim.id = value.claimId →
      claim.status = .rechecking ∧ claim.currentClaimVersionId = some value.claimVersionId
  stored : ∀ value ∈ request.replacementClaimVersions,
    ∃ version ∈ db.claims.versions, version.id = value.claimVersionId
  replacements : ∀ value ∈ request.replacementClaimVersions, ∀ version ∈ db.claims.versions,
    version.id = value.claimVersionId → version.lifecycle = .rechecking ∧
      ∀ successorId ∈ value.supersededById, version.supersededById = some successorId
  predecessors : ∀ value ∈ request.replacementClaimVersions, ∀ version ∈ db.claims.versions,
    some version.id = value.predecessorId →
      version.lifecycle = .superseded ∧ version.supersededById = some value.claimVersionId
  stale : ∀ version ∈ db.claims.versions, version.id ∈ request.markStaleClaimVersionIds →
    (∀ value ∈ request.replacementClaimVersions, ¬value.Writes version.id) →
      version.lifecycle = .stale
  staleClaims : ∀ claim ∈ db.claims.claims,
    claim.IsAffected request.meetingId request.markStaleClaimVersionIds →
      (∀ value ∈ request.replacementClaimVersions, claim.id ≠ value.claimId) →
        claim.status = .stale

/-- A result that succeeded is delivered again only while it is in place. -/
def whileInPlace : Guard RefinementDb RefinementAction ResultDelivery := fun config action _ =>
  match action with
  | .result _ request => SucceededBefore config.trace request → StillInPlace request config.state
  | _ => True

section Rewritten

variable {host : StoreHost} {now : Int} {request : MeetingRefinementResultApplyRequest}
  {done : List MeetingClaimVersionUpsertDto} {value : MeetingClaimVersionUpsertDto}

/-- A claim as it was, or waiting for the replacement that moves it back. -/
structure ClaimRow.Rewritten (request : MeetingRefinementResultApplyRequest)
    (done : List MeetingClaimVersionUpsertDto) (before claim : ClaimRow) : Prop where
  id : claim.id = before.id
  current : claim.currentClaimVersionId = before.currentClaimVersionId
  status : claim.status = before.status ∨
    (∃ value ∈ request.replacementClaimVersions, before.id = value.claimId) ∧
      ∀ value ∈ done, before.id ≠ value.claimId

/-- A version as it was, or waiting for the replacement that writes it. -/
structure ClaimVersionRow.Rewritten (request : MeetingRefinementResultApplyRequest)
    (done : List MeetingClaimVersionUpsertDto) (before version : ClaimVersionRow) : Prop where
  same : version = { before with lifecycle := version.lifecycle }
  lifecycle : version.lifecycle = before.lifecycle ∨
    (∃ value ∈ request.replacementClaimVersions, value.Writes before.id) ∧
      ∀ value ∈ done, ¬value.Writes before.id

/-- The tables during a second delivery, beside those before it. -/
structure ClaimTables.Rewritten (request : MeetingRefinementResultApplyRequest)
    (done : List MeetingClaimVersionUpsertDto) (before tables : ClaimTables) : Prop where
  claims : List.Forall₂ (ClaimRow.Rewritten request done) before.claims tables.claims
  versions : List.Forall₂ (ClaimVersionRow.Rewritten request done) before.versions tables.versions
  versionSegments : tables.versionSegments = before.versionSegments

theorem StillInPlace.markedStale {db : RefinementDb} (inPlace : StillInPlace request db) :
    ClaimTables.Rewritten request [] db.claims
      (db.claims.markedStale now request.meetingId request.markStaleClaimVersionIds) := by
  constructor
  case claims =>
    refine forall₂_map_right_iff.mpr (forall₂_same.mpr fun claim member => ?_)
    by_cases affected : claim.IsAffected request.meetingId request.markStaleClaimVersionIds
    · rw [if_pos (decide_eq_true affected)]
      refine ⟨rfl, rfl, ?_⟩
      by_cases replaced : ∃ value ∈ request.replacementClaimVersions, claim.id = value.claimId
      · exact .inr ⟨replaced, forall_mem_nil _⟩
      · left
        refine (inPlace.staleClaims claim member affected fun value listed same => ?_).symm
        exact replaced ⟨value, listed, same⟩
    · rw [if_neg (by simpa using affected)]
      exact ⟨rfl, rfl, .inl rfl⟩
  case versions =>
    refine forall₂_map_right_iff.mpr (forall₂_same.mpr fun version member => ?_)
    by_cases marked : version.id ∈ request.markStaleClaimVersionIds
    · rw [if_pos (decide_eq_true marked)]
      refine ⟨rfl, ?_⟩
      by_cases written : ∃ value ∈ request.replacementClaimVersions, value.Writes version.id
      · exact .inr ⟨written, forall_mem_nil _⟩
      · left
        refine (inPlace.stale version member marked fun value listed writes => ?_).symm
        exact written ⟨value, listed, writes⟩
    · rw [if_neg (by simpa using marked)]
      exact ⟨rfl, .inl rfl⟩
  case versionSegments => rfl

variable {db : RefinementDb} {tables : ClaimTables}

theorem ClaimTables.Rewritten.supersededIds_eq {claim : ClaimRow}
    (rewritten : ClaimTables.Rewritten request done db.claims tables)
    (inPlace : StillInPlace request db) (listed : value ∈ request.replacementClaimVersions)
    (found : lookup ClaimRow.id tables.claims value.claimId = some claim) :
    supersededIds value (tables.withUpsert host now request.meetingId value) =
      value.predecessorId.toList := by
  obtain ⟨member, isClaim⟩ := lookup_eq_some found
  obtain ⟨before, beforeMember, same⟩ := exists_left_of_forall₂ rewritten.claims member
  have isCurrent : claim.currentClaimVersionId = some value.claimVersionId := by
    rw [same.current]
    exact (inPlace.rechecking value listed before beforeMember (same.id ▸ isClaim)).2
  have kept : ∀ row, (ClaimRow.withUpsert now value row).id = row.id := fun _ => rfl
  have stored : lookup ClaimRow.id (claimsWithUpsert now request.meetingId value tables.claims)
      value.claimId = some (claim.withUpsert now value) := by
    unfold claimsWithUpsert
    rw [found]
    rw [lookup_updateWhere kept, found]
    simp [isClaim]
  have current : (claim.withUpsert now value).currentClaimVersionId =
      some value.claimVersionId :=
    isCurrent
  unfold supersededIds ClaimTables.withUpsert
  rw [stored, Option.bind_some, current]
  simp

/-- The row of a version after a replacement was stored again. -/
theorem ClaimVersionRow.Rewritten.step {before row : ClaimVersionRow}
    (same : ClaimVersionRow.Rewritten request done before row) (inPlace : StillInPlace request db)
    (replacement : IsReplacement request value)
    (listed : value ∈ request.replacementClaimVersions) (member : before ∈ db.claims.versions) :
    ClaimVersionRow.Rewritten request (done ++ [value]) before
      ((if row.id = value.claimVersionId then
        { row with
          lifecycle := value.lifecycle
          supersededById := value.supersededById <|> row.supersededById }
        else row).superseding value.predecessorId.toList value.claimVersionId) := by
  have sameId : row.id = before.id := by
    rw [same.same]
  by_cases isOwn : before.id = value.claimVersionId
  · obtain ⟨recheck, successor⟩ := inPlace.replacements value listed before member isOwn
    have notPredecessor : before.id ∉ value.predecessorId.toList := by
      intro isPredecessor
      have superseded := (inPlace.predecessors value listed before member
        (Option.mem_toList.mp isPredecessor).symm).1
      rw [recheck] at superseded
      cases superseded
    have keptSuccessor : (value.supersededById <|> row.supersededById) = before.supersededById := by
      cases isSuccessor : value.supersededById with
      | none => rw [same.same]; rfl
      | some successorId => exact (successor successorId isSuccessor).symm
    rw [if_pos (sameId.trans isOwn), keptSuccessor, replacement.lifecycle,
      ClaimVersionRow.superseding, if_neg (by simpa only [sameId] using notPredecessor)]
    refine ⟨?_, .inl recheck.symm⟩
    rw [same.same]
  · rw [if_neg (by rw [sameId]; exact isOwn), ClaimVersionRow.superseding]
    by_cases isPredecessor : before.id ∈ value.predecessorId.toList
    · obtain ⟨superseded, successor⟩ := inPlace.predecessors value listed before member
        (Option.mem_toList.mp isPredecessor).symm
      rw [if_pos (by rw [sameId]; exact isPredecessor)]
      refine ⟨?_, .inl superseded.symm⟩
      rw [same.same, ← successor]
    · rw [if_neg (by rw [sameId]; exact isPredecessor)]
      refine ⟨same.same, same.lifecycle.imp_right fun waiting => ⟨waiting.1, ?_⟩⟩
      refine forall_mem_append.mpr ⟨waiting.2, ?_⟩
      rw [forall_mem_singleton]
      rintro (own | predecessor)
      · exact isOwn own
      · exact isPredecessor (Option.mem_toList.mpr predecessor.symm)

/-- A replacement that is stored again writes what is in place. -/
theorem ClaimTables.Rewritten.step {context : MeetingsDb} {after : ClaimTables}
    (rewritten : ClaimTables.Rewritten request done db.claims tables)
    (inPlace : StillInPlace request db) (replacement : IsReplacement request value)
    (listed : value ∈ request.replacementClaimVersions)
    (applied : applyClaimVersion host now request.meetingId context tables value = .ok after) :
    ClaimTables.Rewritten request (done ++ [value]) db.claims after := by
  obtain ⟨admits, afterEq⟩ := applyClaimVersion_eq_ok_iff.mp applied
  obtain ⟨claim, claimFound⟩ := exists_claim_of_admits replacement admits
  obtain ⟨stored, storedMember, isStored⟩ := inPlace.stored value listed
  obtain ⟨row, rowMember, sameRow⟩ := exists_right_of_forall₂ rewritten.versions storedMember
  have rowId : row.id = value.claimVersionId := by
    rw [sameRow.same, isStored]
  obtain ⟨version, versionFound⟩ :
      ∃ version, lookup ClaimVersionRow.id tables.versions value.claimVersionId = some version :=
    rowId ▸ exists_lookup_of_mem rowMember
  rw [if_pos replacement.setCurrent, setCurrentVersion_eq,
    rewritten.supersededIds_eq inPlace listed claimFound] at afterEq
  subst afterEq
  constructor
  case claims =>
    show Forall₂ _ _ (updateWhere _ _ (claimsWithUpsert now request.meetingId value
      tables.claims))
    unfold claimsWithUpsert
    rw [claimFound]
    refine forall₂_map_right_iff.mpr (forall₂_map_right_iff.mpr ?_)
    refine forall₂_of_mem_left rewritten.claims fun before member row same => ?_
    by_cases isClaim : row.id = value.claimId
    · have kept : (row.withUpsert now value).id = value.claimId := isClaim
      obtain ⟨recheck, isCurrent⟩ :=
        inPlace.rechecking value listed before member (same.id ▸ isClaim)
      simp only [isClaim, kept, decide_true, if_true]
      exact ⟨same.id, isCurrent.symm, .inl (replacement.status.trans recheck.symm)⟩
    · simp only [isClaim, decide_false, Bool.false_eq_true, if_false]
      refine ⟨same.id, same.current, same.status.imp_right fun waiting => ⟨waiting.1, ?_⟩⟩
      refine forall_mem_append.mpr ⟨waiting.2, ?_⟩
      rw [forall_mem_singleton]
      exact same.id ▸ isClaim
  case versions =>
    show Forall₂ _ _ ((versionsWithUpsert host now value tables.versions).map _)
    unfold versionsWithUpsert
    rw [versionFound]
    refine forall₂_map_right_iff.mpr (forall₂_map_right_iff.mpr ?_)
    refine forall₂_of_mem_left rewritten.versions fun before member row same => ?_
    simp only [decide_eq_true_eq]
    exact same.step inPlace replacement listed member
  case versionSegments =>
    show segmentsWithUpsert value tables.versions tables.versionSegments = _
    unfold segmentsWithUpsert
    rw [versionFound]
    exact rewritten.versionSegments

/-- After all replacements every row is as it was before. -/
theorem ClaimTables.Rewritten.same_of_all {before : ClaimTables}
    (rewritten : ClaimTables.Rewritten request request.replacementClaimVersions before tables) :
    tables.claims.map (fun claim => (claim.id, claim.status)) =
        before.claims.map (fun claim => (claim.id, claim.status)) ∧
      tables.versions = before.versions ∧ tables.versionSegments = before.versionSegments := by
  refine ⟨?_, ?_, rewritten.versionSegments⟩
  · rw [eq_comm, ← forall₂_eq_eq_eq, forall₂_map_left_iff, forall₂_map_right_iff]
    refine rewritten.claims.imp fun row later same => ?_
    rcases same.status with kept | ⟨⟨value, listed, isClaim⟩, untouched⟩
    · rw [same.id, kept]
    · exact absurd isClaim (untouched value listed)
  · rw [eq_comm, ← forall₂_eq_eq_eq]
    refine rewritten.versions.imp fun row later same => ?_
    rcases same.lifecycle with kept | ⟨⟨value, listed, writes⟩, untouched⟩
    · rw [same.same, kept]
    · exact absurd writes (untouched value listed)

/-- A result whose first delivery is in place changes no claim. -/
theorem StillInPlace.sameClaims {db after : RefinementDb} {outcomes : List MeetingUpsertOutcomeDto}
    (inPlace : StillInPlace request db)
    (applied : applyRefinementResultChanges host now request db = .ok (outcomes, after)) :
    SameClaims db after := by
  obtain ⟨replacements, transcript, claims, -, claimed, -, -, rfl⟩ :=
    applyRefinementResultChanges_eq_ok applied
  rw [applyRefinedClaims, bind_eq_ok_iff] at claimed
  obtain ⟨marked, marks, claimed⟩ := claimed
  obtain ⟨-, rfl⟩ := foldlM_markClaimVersionStale marks
  have rewritten := foldlM_history
    (fun done tables => ClaimTables.Rewritten request done db.claims tables) []
    (fun done value listed before next stepped rewritten =>
      rewritten.step inPlace (replacements value listed) listed stepped) claimed
    inPlace.markedStale
  obtain ⟨statuses, versions, versionSegments⟩ := rewritten.same_of_all
  refine ⟨statuses, ?_, versions, versionSegments⟩
  show (updateWhere _ _ db.meetings).map _ = _
  rw [updateWhere, map_map]
  refine map_congr_left fun meeting member => ?_
  by_cases applies : meeting.id = request.meetingId ∧ meeting.deletedAtMs = none
  · simp [applies, inPlace.canonical meeting member applies.1 applies.2]
  · simp [applies]

end Rewritten

theorem serveRefinement_result {host : ResearchHost} {config next : Config RefinementDb
    ResultDelivery} {action : RefinementAction}
    (advanced : advance (serveRefinement host) config action = some next) :
    next.trace = config.trace ∨ ∃ now request, action = .result now request ∧
      next.trace = config.trace ++ [⟨request, config.state,
        (applyRefinementResult host.toStoreHost now request config.state).1,
        (applyRefinementResult host.toStoreHost now request config.state).2⟩] := by
  obtain ⟨emitted, stepped, traced⟩ := advance_eq_some_iff.mp advanced
  cases action with
  | result now request =>
    obtain ⟨-, rfl⟩ := Prod.mk.injEq .. ▸ Option.some_inj.mp stepped
    exact .inr ⟨now, request, rfl, traced⟩
  | store delivery =>
    obtain ⟨-, rfl⟩ := Prod.mk.injEq .. ▸ Option.some_inj.mp stepped
    exact .inl (traced.trans (append_nil _))
  | research now request =>
    obtain ⟨-, rfl⟩ := Prod.mk.injEq .. ▸ Option.some_inj.mp stepped
    exact .inl (traced.trans (append_nil _))
  | job now request =>
    obtain ⟨-, rfl⟩ := Prod.mk.injEq .. ▸ Option.some_inj.mp stepped
    exact .inl (traced.trans (append_nil _))

theorem SafeToRedeliver.step {host : ResearchHost} {config next : Config RefinementDb
    ResultDelivery} {action : RefinementAction} (safe : SafeToRedeliver host.toStoreHost config)
    (advanced : advance (serveRefinement host) config action = some next)
    (admitted : whileInPlace config action next) : SafeToRedeliver host.toStoreHost next := by
  rcases serveRefinement_result advanced with same | ⟨now, request, rfl, traced⟩
  · exact ⟨same ▸ safe.atomic, same ▸ safe.unchanged⟩
  · have cases := transaction_cases (applyRefinementResultChanges host.toStoreHost now request)
      config.state
    constructor
    · rw [traced]
      refine forall_mem_append.mpr ⟨safe.atomic, ?_⟩
      rw [forall_mem_singleton]
      rcases cases with ⟨error, served, -⟩ | ⟨outcomes, changed, served, applied⟩
      · exact .inl ⟨error, congrArg Prod.fst served, congrArg Prod.snd served⟩
      · refine .inr ⟨outcomes, now, congrArg Prod.fst served, ?_⟩
        rw [applyRefinementResult, served]
        exact appliedInFull_of_ok applied
    · intro earlier delivery later split again
      rw [traced] at split
      rcases eq_nil_or_concat later with rfl | ⟨rest, last, rfl⟩
      · obtain ⟨rfl, isLast⟩ := append_inj' split rfl
        obtain ⟨rfl, -⟩ := cons.inj isLast
        rcases cases with ⟨error, served, -⟩ | ⟨outcomes, changed, served, applied⟩
        · rw [applyRefinementResult, served]
          exact ⟨rfl, rfl, rfl, rfl⟩
        · rw [applyRefinementResult, served]
          exact (admitted again).sameClaims applied
      · rw [concat_eq_append, ← cons_append, ← append_assoc] at split
        exact safe.unchanged earlier delivery rest (append_inj' split rfl).1 again

/-- As long as no result that succeeded is delivered again after what it wrote
was changed, results are applied atomically and every repeated delivery leaves
the claims, their versions and the canonical transcript as they were. -/
theorem refinement_redeliverable (host : ResearchHost) (start : RefinementDb)
    (config : Config RefinementDb ResultDelivery)
    (reaches : Reaches (serveRefinement host) whileInPlace start config) :
    SafeToRedeliver host.toStoreHost config :=
  reaches.invariant (SafeToRedeliver host.toStoreHost) ⟨forall_mem_nil _, by simp⟩
    fun _ _ _ _ safe advanced admitted => safe.step advanced admitted

/-- Every text is an identifier and a URL in recorded requests. -/
def recordedResearchHost : ResearchHost where
  toStoreHost := recordedHost
  isWebUrl := fun _ => true

def recordedRefinedVersionId : String := "5f0c1d2e-3a4b-4c5d-8e6f-708192a3b402"

def recordedRefinementJobId : String := "3e2d1c0b-9a8f-4e7d-8c6b-5a4f3e2d1c01"

/-- A version of the recorded claim before it was refined. -/
def recordedClaims : ClaimTables where
  manualRequests := []
  contextTurns := []
  requestSegments := []
  claims := [ClaimRow.withCurrent 5 (recordedClaimVersion "version-1" 1)
    (ClaimRow.ofUpsert 5 recordedMeetingId (recordedClaimVersion "version-1" 1))]
  versions := [ClaimVersionRow.ofUpsert recordedHost (recordedClaimVersion "version-1" 1) 5]
  versionSegments := []

/-- A meeting with a claim and a refinement that is being processed. -/
def recordedRefinementDb : RefinementDb where
  toMeetingsDb := { recordedDb with claims := recordedClaims }
  research := ⟨[], [], []⟩
  progress := [⟨recordedMeetingId, .notStarted, .processing⟩]
  refinementJobs :=
    [{ id := recordedRefinementJobId
       meetingId := recordedMeetingId
       sourceTranscriptVersionId := recordedVersionId
       inputManifestChecksum := "manifest-v1"
       provider := "test-transcriber"
       model := "test-model"
       gatewayJobId := none
       idempotencyKey := "refinement-1"
       status := .processing
       attemptCount := 1
       nextRetryAtMs := none
       usageJson := none
       latencyMs := none
       startedAtMs := some 5
       completedAtMs := none
       error := none
       createdAtMs := 5
       updatedAtMs := 5 }]

/-- A result that replaces the version of the recorded claim. -/
def recordedResult : MeetingRefinementResultApplyRequest where
  meetingId := recordedMeetingId
  refinementJobId := recordedRefinementJobId
  version :=
    { recordedVersion with
      id := recordedRefinedVersionId
      kind := .refined
      status := .complete }
  segments := []
  speakerObservations := []
  markStaleClaimVersionIds := ["version-1"]
  replacementClaimVersions :=
    [{ recordedClaimVersion "version-2" 2 with
       status := .rechecking
       predecessorId := some "version-1"
       sourceTranscriptVersionId := some recordedRefinedVersionId
       lifecycle := .rechecking }]

/-- Deep research of the replacement is complete. -/
def recordedResearch : MeetingResearchApplyRequest where
  meetingId := recordedMeetingId
  job := some
    { id := "research-1"
      claimVersionId := "version-2"
      stage := .deep
      gatewayJobId := none
      idempotencyKey := "research-1"
      status := .complete
      attemptCount := 1
      nextRetryAtMs := none
      startedAtMs := none
      completedAtMs := some 20
      error := none }
  assessment := none

/-- The recorded result, served at a time. -/
def serveRecorded (now : Int) (db : RefinementDb) :
    Change (List MeetingUpsertOutcomeDto) × RefinementDb :=
  applyRefinementResult recordedHost now recordedResult db

def recordedDelivery (now : Int) (db : RefinementDb) : ResultDelivery :=
  ⟨recordedResult, db, (serveRecorded now db).1, (serveRecorded now db).2⟩

def afterRecordedResult : RefinementDb :=
  (serveRecorded 10 recordedRefinementDb).2

theorem serveRecorded_ok : ∃ outcomes, (serveRecorded 10 recordedRefinementDb).1 = .ok outcomes :=
  have succeeds : (serveRecorded 10 recordedRefinementDb).1.isOk := by decide +kernel
  match found : (serveRecorded 10 recordedRefinementDb).1 with
  | .ok outcomes => ⟨outcomes, rfl⟩
  | .error _ => by simp [found, Except.isOk, Except.toBool] at succeeds

theorem advance_recordedResult (now : Int) (config : Config RefinementDb ResultDelivery) :
    advance (serveRefinement recordedResearchHost) config (.result now recordedResult) =
      some ⟨(serveRecorded now config.state).2,
        config.trace ++ [recordedDelivery now config.state]⟩ :=
  rfl

/-- A result is delivered again at once. -/
theorem refinement_redeliverable_atOnce : SafeToRedeliver recordedHost
    ⟨(serveRecorded 20 afterRecordedResult).2,
      [recordedDelivery 10 recordedRefinementDb, recordedDelivery 20 afterRecordedResult]⟩ := by
  have inPlace : StillInPlace recordedResult afterRecordedResult := by
    constructor <;> decide +kernel
  refine refinement_redeliverable recordedResearchHost recordedRefinementDb _ ?_
  refine Reaches.tail (Reaches.tail Reaches.refl
    (advance_recordedResult 10 (Config.initial recordedRefinementDb)) ?_)
    (advance_recordedResult 20 _) fun _ => inPlace
  rintro ⟨earlier, member, -⟩
  exact absurd member not_mem_nil

/-- Deep research settles the claim between two deliveries of a result. -/
def afterRecordedResearch : RefinementDb :=
  { afterRecordedResult with
    toResearchDb :=
      (applyResearch recordedResearchHost 20 recordedResearch afterRecordedResult.toResearchDb).2 }

theorem not_safeToRedeliver_afterResearch :
    ∃ config, Reaches (serveRefinement recordedResearchHost) anyRefinement recordedRefinementDb
      config ∧ ¬SafeToRedeliver recordedHost config := by
  refine ⟨_, Reaches.tail (Reaches.tail (Reaches.tail Reaches.refl
    (advance_recordedResult 10 (Config.initial recordedRefinementDb)) trivial)
    (show advance (serveRefinement recordedResearchHost) _ (.research 20 recordedResearch) =
      some ⟨afterRecordedResearch, [recordedDelivery 10 recordedRefinementDb]⟩ from rfl) trivial)
    (advance_recordedResult 30 _) trivial, fun safe => ?_⟩
  have same := safe.unchanged [recordedDelivery 10 recordedRefinementDb]
    (recordedDelivery 30 afterRecordedResearch) [] rfl
    ⟨_, mem_singleton_self _, rfl, serveRecorded_ok⟩
  have differ : (recordedDelivery 30 afterRecordedResearch).after.claims.claims.map
      (fun claim => (claim.id, claim.status)) ≠
        (recordedDelivery 30 afterRecordedResearch).before.claims.claims.map
          fun claim => (claim.id, claim.status) := by
    decide +kernel
  exact differ same.statuses

end Obelus.Meetings
