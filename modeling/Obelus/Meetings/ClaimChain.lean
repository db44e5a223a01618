import Obelus.Meetings.Store
import Obelus.Meetings.TranscriptErrors

/-!
# The version chain of a claim

A claim keeps its versions, each with a link to the version that superseded it,
and a pointer to the current one.  The versions of one claim are submitted in
increasing order, and a submission may be delivered again.  A delivery is
decided by the version rows, the pointer and the links together, so the chain is
read off the last submission that was stored.
-/

namespace Obelus.Meetings

open Obelus.Data
open List hiding lookup
open Obelus.Transition
open Validation

/-! ## When a claim version is stored -/

/-- The claim with the columns an upsert changes. -/
def ClaimRow.withUpsert (now : Int) (value : MeetingClaimVersionUpsertDto) (claim : ClaimRow) :
    ClaimRow :=
  { claim with
    duplicateKey := value.duplicateKey <|> claim.duplicateKey
    status := value.status
    updatedAtMs := now }

def ClaimRow.ofUpsert (now : Int) (meetingId : String) (value : MeetingClaimVersionUpsertDto) :
    ClaimRow where
  id := value.claimId
  meetingId
  manualRequestId := value.manualRequestId
  origin := value.origin
  duplicateKey := value.duplicateKey
  status := value.status
  currentClaimVersionId := none
  createdAtMs := now
  updatedAtMs := now

/-- The claims after an upsert that succeeds. -/
def claimsWithUpsert (now : Int) (meetingId : String) (value : MeetingClaimVersionUpsertDto)
    (claims : List ClaimRow) : List ClaimRow :=
  match lookup ClaimRow.id claims value.claimId with
  | some _ => updateWhere (fun claim => claim.id = value.claimId) (ClaimRow.withUpsert now value)
      claims
  | none => claims ++ [ClaimRow.ofUpsert now meetingId value]

/-- The claim may be written: it is the stored one, and its key is free. -/
structure AdmitsClaim (meetingId : String) (value : MeetingClaimVersionUpsertDto)
    (tables : ClaimTables) : Prop where
  same : ∀ stored, lookup ClaimRow.id tables.claims value.claimId = some stored →
    stored.meetingId = meetingId ∧ stored.origin = value.origin ∧
      stored.manualRequestId = value.manualRequestId
  duplicateKey : duplicateKeyIsFree tables meetingId value.claimId value.duplicateKey

variable {now : Int} {meetingId claimId : String} {value last : MeetingClaimVersionUpsertDto}
  {tables : ClaimTables} {transcript : TranscriptTables} {host : StoreHost} {db : MeetingsDb}
  {config : Config MeetingsDb MeetingClaimVersionUpsertDto}

theorem upsertClaim_eq_ok_iff {after : ClaimTables} :
    upsertClaim now meetingId value tables = .ok after ↔
      AdmitsClaim meetingId value tables ∧
        { tables with claims := claimsWithUpsert now meetingId value tables.claims } = after := by
  unfold upsertClaim claimsWithUpsert
  cases found : lookup ClaimRow.id tables.claims value.claimId with
  | none =>
    simp only [bind_eq_ok_iff, ensure_eq_ok_iff, pure_eq_ok_iff, exists_const]
    constructor
    · rintro ⟨free, afterEq⟩
      exact ⟨⟨by simp [found], free⟩, afterEq⟩
    · rintro ⟨admits, afterEq⟩
      exact ⟨admits.duplicateKey, afterEq⟩
  | some stored =>
    simp only [bind_eq_ok_iff, ensure_eq_ok_iff, pure_eq_ok_iff, exists_const]
    constructor
    · rintro ⟨same, free, afterEq⟩
      exact ⟨⟨by simpa [found] using same, free⟩, afterEq⟩
    · rintro ⟨admits, afterEq⟩
      exact ⟨admits.same stored found, admits.duplicateKey, afterEq⟩

/-- The segments of a new version exist and are not linked to it yet. -/
structure AdmitsSegments (meetingId claimVersionId : String) (transcript : TranscriptTables)
    (segmentIds : List String) (rows : List ClaimVersionSegmentRow) : Prop where
  exist : ∀ segmentId ∈ segmentIds,
    ensureMeetingSegment transcript meetingId segmentId = .ok ⟨⟩
  distinct : segmentIds.Nodup
  unlinked : ∀ row ∈ rows, row.claimVersionId = claimVersionId → row.segmentId ∉ segmentIds

theorem insertVersionSegments_eq_ok_iff {claimVersionId : String} {ordinal : Nat}
    {segmentIds : List String} {after : ClaimTables} :
    insertVersionSegments meetingId claimVersionId transcript ordinal segmentIds tables =
        .ok after ↔
      AdmitsSegments meetingId claimVersionId transcript segmentIds tables.versionSegments ∧
        { tables with
          versionSegments := tables.versionSegments ++ segmentIds.mapIdx
            fun place segmentId => ⟨claimVersionId, segmentId, ordinal + place⟩ } = after := by
  induction segmentIds generalizing ordinal tables with
  | nil =>
    simp only [insertVersionSegments, mapIdx_nil, append_nil, Except.ok.injEq]
    exact ⟨fun same => ⟨⟨by simp, nodup_nil, by simp⟩, same⟩, fun both => both.2⟩
  | cons segmentId rest ih =>
    simp only [insertVersionSegments, bind_eq_ok_iff, ensure_eq_ok_iff, exists_const, ih,
      mapIdx_cons, append_assoc]
    have places : (fun place segmentId =>
        ClaimVersionSegmentRow.mk claimVersionId segmentId (ordinal + 1 + place)) =
        fun place segmentId => ⟨claimVersionId, segmentId, ordinal + (place + 1)⟩ := by
      funext place segmentId
      rw [Nat.add_assoc, Nat.add_comm 1]
    rw [places]
    constructor
    · rintro ⟨_, found, fresh, admits, afterEq⟩
      refine ⟨?_, afterEq⟩
      constructor
      · exact forall_mem_cons.mpr ⟨found, admits.exist⟩
      · rw [nodup_cons]
        exact ⟨admits.unlinked ⟨claimVersionId, segmentId, ordinal⟩ (by simp) rfl, admits.distinct⟩
      · intro row member linked
        rw [mem_cons, not_or]
        exact ⟨fun same => fresh row member ⟨linked, same⟩,
          admits.unlinked row (mem_append_left _ member) linked⟩
    · rintro ⟨admits, afterEq⟩
      obtain ⟨found, others⟩ := forall_mem_cons.mp admits.exist
      obtain ⟨absent, distinct⟩ := nodup_cons.mp admits.distinct
      refine ⟨⟨⟩, found, ?_, ⟨others, distinct, ?_⟩, afterEq⟩
      · rintro row member ⟨linked, same⟩
        exact admits.unlinked row member linked (same ▸ mem_cons_self)
      · intro row member linked
        rcases mem_append.mp member with stored | isNew
        · intro again
          exact admits.unlinked row stored linked (mem_cons_of_mem _ again)
        · rw [mem_singleton.mp isNew]
          exact absent

/-- The versions after an upsert that succeeds. -/
def versionsWithUpsert (host : StoreHost) (now : Int) (value : MeetingClaimVersionUpsertDto)
    (versions : List ClaimVersionRow) : List ClaimVersionRow :=
  match lookup ClaimVersionRow.id versions value.claimVersionId with
  | some _ => updateWhere (fun version => version.id = value.claimVersionId)
      (fun version =>
        { version with
          lifecycle := value.lifecycle
          supersededById := value.supersededById <|> version.supersededById }) versions
  | none => versions ++ [ClaimVersionRow.ofUpsert host value now]

def segmentsWithUpsert (value : MeetingClaimVersionUpsertDto) (versions : List ClaimVersionRow)
    (rows : List ClaimVersionSegmentRow) : List ClaimVersionSegmentRow :=
  match lookup ClaimVersionRow.id versions value.claimVersionId with
  | some _ => rows
  | none => rows ++ value.segmentIds.mapIdx fun place segmentId =>
    ⟨value.claimVersionId, segmentId, 0 + place⟩

/-- The version may be written: it is the stored one, or new in every respect. -/
structure AdmitsVersion (host : StoreHost) (meetingId : String) (transcript : TranscriptTables)
    (value : MeetingClaimVersionUpsertDto) (tables : ClaimTables) : Prop where
  same : ∀ stored, lookup ClaimVersionRow.id tables.versions value.claimVersionId = some stored →
    stored.claimId = value.claimId ∧ stored.versionNumber = value.versionNumber.toNat ∧
      stored.contentHash = host.blake3 value.semantic.tokens
  number : lookup ClaimVersionRow.id tables.versions value.claimVersionId = none →
    ∀ version ∈ tables.versions, ¬(version.claimId = value.claimId ∧
      version.versionNumber = value.versionNumber.toNat)
  segments : lookup ClaimVersionRow.id tables.versions value.claimVersionId = none →
    AdmitsSegments meetingId value.claimVersionId transcript value.segmentIds
      tables.versionSegments

theorem upsertClaimVersion_eq_ok_iff {after : ClaimTables} :
    upsertClaimVersion host now meetingId transcript value tables = .ok after ↔
      AdmitsVersion host meetingId transcript value tables ∧
        { tables with
          versions := versionsWithUpsert host now value tables.versions
          versionSegments := segmentsWithUpsert value tables.versions tables.versionSegments } =
            after := by
  unfold upsertClaimVersion versionsWithUpsert segmentsWithUpsert
  cases found : lookup ClaimVersionRow.id tables.versions value.claimVersionId with
  | none =>
    simp only [bind_eq_ok_iff, ensure_eq_ok_iff, exists_const, insertVersionSegments_eq_ok_iff]
    constructor
    · rintro ⟨fresh, segments, afterEq⟩
      exact ⟨⟨by simp [found], fun _ => fresh, fun _ => segments⟩, afterEq⟩
    · rintro ⟨admits, afterEq⟩
      exact ⟨admits.number found, admits.segments found, afterEq⟩
  | some stored =>
    simp only [bind_eq_ok_iff, ensure_eq_ok_iff, pure_eq_ok_iff, exists_const]
    constructor
    · rintro ⟨same, afterEq⟩
      refine ⟨⟨?_, by simp [found], by simp [found]⟩, afterEq⟩
      intro other isOther
      cases found.symm.trans isOther
      exact same
    · rintro ⟨admits, afterEq⟩
      exact ⟨admits.same stored found, afterEq⟩

/-- The rows a version refers to exist, and related versions are of its claim. -/
structure AdmitsReferences (meetingId : String) (db : MeetingsDb)
    (value : MeetingClaimVersionUpsertDto) (tables : ClaimTables) : Prop where
  manualRequest : ∀ manualRequestId ∈ value.manualRequestId,
    ∃ request ∈ tables.manualRequests, request.id = manualRequestId ∧
      request.meetingId = meetingId
  speaker : ∀ speakerId ∈ value.speakerId,
    ensureSpeaker db.speakers meetingId speakerId = .ok ⟨⟩
  source : ∀ versionId ∈ value.sourceTranscriptVersionId,
    ∃ version ∈ db.transcript.versions, version.id = versionId ∧ version.meetingId = meetingId
  related : ∀ versionId ∈ value.predecessorId.toList ++ value.supersededById.toList,
    ensureClaimVersionRelationship meetingId value.claimId tables versionId = .ok ⟨⟩

/-- A version is stored exactly when all its checks succeed on these tables. -/
structure Admits (host : StoreHost) (meetingId : String) (db : MeetingsDb)
    (value : MeetingClaimVersionUpsertDto) (tables : ClaimTables) : Prop where
  references : AdmitsReferences meetingId db value tables
  claim : AdmitsClaim meetingId value tables
  version : AdmitsVersion host meetingId db.transcript value tables

/-- The claim tables with an upserted version, before it is made current. -/
def ClaimTables.withUpsert (host : StoreHost) (now : Int) (meetingId : String)
    (value : MeetingClaimVersionUpsertDto) (tables : ClaimTables) : ClaimTables :=
  { tables with
    claims := claimsWithUpsert now meetingId value tables.claims
    versions := versionsWithUpsert host now value tables.versions
    versionSegments := segmentsWithUpsert value tables.versions tables.versionSegments }

theorem whenPresent_eq_ok_iff {α : Type} {check : α → Checked} {value : Option α} :
    whenPresent check value = .ok ⟨⟩ ↔ ∀ present ∈ value, check present = .ok ⟨⟩ := by
  cases value <;> simp [whenPresent]

theorem applyClaimVersion_eq_ok_iff {after : ClaimTables} :
    applyClaimVersion host now meetingId db tables value = .ok after ↔
      Admits host meetingId db value tables ∧
        (if value.setCurrent then
          setCurrentVersion now value (tables.withUpsert host now meetingId value)
        else tables.withUpsert host now meetingId value) = after := by
  simp only [applyClaimVersion, bind_eq_ok_iff, pure_eq_ok_iff, upsertClaim_eq_ok_iff,
    upsertClaimVersion_eq_ok_iff]
  constructor
  · rintro ⟨_, manual, _, speaker, _, source, _, related, _, ⟨claim, rfl⟩, _, ⟨version, rfl⟩,
      afterEq⟩
    have manual := whenPresent_eq_ok_iff.mp manual
    have source := whenPresent_eq_ok_iff.mp source
    simp only [ensure_eq_ok_iff] at manual source
    exact ⟨⟨⟨manual, whenPresent_eq_ok_iff.mp speaker, source, forEach_eq_ok_iff.mp related⟩,
      claim, ⟨version.same, version.number, version.segments⟩⟩, afterEq⟩
  · rintro ⟨⟨references, claim, version⟩, afterEq⟩
    refine ⟨⟨⟩, ?_, ⟨⟩, ?_, ⟨⟩, ?_, ⟨⟩, ?_, _, ⟨claim, rfl⟩, _,
      ⟨⟨version.same, version.number, version.segments⟩, rfl⟩, afterEq⟩
    · simpa only [whenPresent_eq_ok_iff, ensure_eq_ok_iff] using references.manualRequest
    · exact whenPresent_eq_ok_iff.mpr references.speaker
    · simpa only [whenPresent_eq_ok_iff, ensure_eq_ok_iff] using references.source
    · exact forEach_eq_ok_iff.mpr references.related

/-! ## Deliveries -/

/-- The request that carries one claim version. -/
def claimVersionRequest (meetingId : String) (value : MeetingClaimVersionUpsertDto) :
    MeetingClaimsApplyRequest where
  meetingId
  manualFactCheckRequests := []
  claimVersions := [value]
  markStaleClaimVersionIds := []
  beginClaimGateBatches := []
  completeClaimGateBatchIds := []

/-- A claim version and the time at which it is delivered. -/
structure ClaimUpsert where
  now : Int
  value : MeetingClaimVersionUpsertDto

def upsertClaimVersionRequest (host : StoreHost) (meetingId : String) (now : Int)
    (value : MeetingClaimVersionUpsertDto) (db : MeetingsDb) : MeetingsDb :=
  (applyClaims host now (claimVersionRequest meetingId value) db).2

/-- The store serves claim versions of a meeting and records them. -/
def deliver (host : StoreHost) (meetingId : String) :
    Machine MeetingsDb ClaimUpsert MeetingClaimVersionUpsertDto :=
  fun db upsert =>
    some (upsertClaimVersionRequest host meetingId upsert.now upsert.value db, [upsert.value])

/-- The versions of a claim are first submitted in increasing order, to become
current, and any of them may be delivered again unchanged. -/
def submittedInOrder (claimId : String) :
    Guard MeetingsDb ClaimUpsert MeetingClaimVersionUpsertDto :=
  fun config upsert _ => upsert.value.claimId = claimId ∧ upsert.value.setCurrent ∧
    (upsert.value ∈ config.trace ∨
      ∀ earlier ∈ config.trace, earlier.versionNumber < upsert.value.versionNumber)

/-- No stored version of the claim is higher. -/
def NoneHigher (claimId : String) (db : MeetingsDb) (value : MeetingClaimVersionUpsertDto) : Prop :=
  ∀ version ∈ db.claims.versions, version.claimId = claimId →
    version.versionNumber ≤ value.versionNumber.toNat

/-- A version is delivered again only until a higher one is stored. -/
def beforeHigher (claimId : String) : Guard MeetingsDb ClaimUpsert MeetingClaimVersionUpsertDto :=
  fun config upsert next => submittedInOrder claimId config upsert next ∧
    NoneHigher claimId config.state upsert.value

/-! ## The chain -/

/-- The pointer to the current version of a claim. -/
def MeetingsDb.currentVersionId (db : MeetingsDb) (claimId : String) : Option String :=
  (lookup ClaimRow.id db.claims.claims claimId).bind ClaimRow.currentClaimVersionId

def MeetingsDb.SupersededBy (db : MeetingsDb) (versionId successorId : String) : Prop :=
  (lookup ClaimVersionRow.id db.claims.versions versionId).bind ClaimVersionRow.supersededById =
    some successorId

/-- The current version of a claim is the highest one stored. -/
def CurrentIsHighest (claimId : String) (db : MeetingsDb) : Prop :=
  ∀ version ∈ db.claims.versions, version.claimId = claimId →
    ∃ current ∈ db.claims.versions, current.claimId = claimId ∧
      db.currentVersionId claimId = some current.id ∧
        version.versionNumber ≤ current.versionNumber

/-- From every version the links lead to the current one. -/
def LeadsToCurrent (claimId : String) (db : MeetingsDb) : Prop :=
  ∀ version ∈ db.claims.versions, version.claimId = claimId →
    ∃ current, db.currentVersionId claimId = some current ∧
      Relation.ReflTransGen db.SupersededBy version.id current

/-- The database without the times at which meetings and claims were updated. -/
def MeetingsDb.withoutUpdateTimes (db : MeetingsDb) : MeetingsDb :=
  { db with
    meetings := db.meetings.map fun meeting => { meeting with updatedAtMs := 0 }
    claims := { db.claims with
      claims := db.claims.claims.map fun claim => { claim with updatedAtMs := 0 } } }

/-- The chain is sound, and no delivery that is repeated changes a row. -/
structure SurvivesRedelivery (host : StoreHost) (meetingId claimId : String)
    (config : Config MeetingsDb MeetingClaimVersionUpsertDto) : Prop where
  current : CurrentIsHighest claimId config.state
  leads : LeadsToCurrent claimId config.state
  unchanged : ∀ value ∈ config.trace, ∀ now,
    upsertClaimVersionRequest host meetingId now value config.state = config.state

/-- The chain is sound, and a delivery that is repeated before a higher version
is stored changes nothing but update times. -/
structure SurvivesPromptRedelivery (host : StoreHost) (meetingId claimId : String)
    (config : Config MeetingsDb MeetingClaimVersionUpsertDto) : Prop where
  current : CurrentIsHighest claimId config.state
  leads : LeadsToCurrent claimId config.state
  unchanged : ∀ value ∈ config.trace, NoneHigher claimId config.state value → ∀ now,
    (upsertClaimVersionRequest host meetingId now value config.state).withoutUpdateTimes =
      config.state.withoutUpdateTimes

/-! ## The effect of a delivery -/

/-- A claim version passes every check of its request. -/
structure AcceptsUpsert (host : StoreHost) (meetingId : String)
    (value : MeetingClaimVersionUpsertDto) (db : MeetingsDb) : Prop where
  valid : validateClaimsRequest host (claimVersionRequest meetingId value) = .ok ⟨⟩
  meeting : getMeeting db meetingId = .ok ⟨⟩
  admits : Admits host meetingId db value db.claims

/-- The database after a version was stored and made current. -/
def MeetingsDb.withCurrentVersion (host : StoreHost) (meetingId : String) (now : Int)
    (value : MeetingClaimVersionUpsertDto) (db : MeetingsDb) : MeetingsDb :=
  { db with
    claims := setCurrentVersion now value (db.claims.withUpsert host now meetingId value) }.touch
      meetingId now

theorem applyClaimsChanges_single (setCurrent : value.setCurrent) {after : MeetingsDb}
    {result : PUnit} :
    applyClaimsChanges host now (claimVersionRequest meetingId value) db = .ok (result, after) ↔
      AcceptsUpsert host meetingId value db ∧ db.withCurrentVersion host meetingId now value =
        after := by
  simp only [applyClaimsChanges, bind_eq_ok_iff, pure_eq_ok_iff, claimVersionRequest, foldlM_nil,
    foldlM_cons, applyClaimVersion_eq_ok_iff, setCurrent, Prod.mk.injEq]
  constructor
  · rintro ⟨_, valid, _, meeting, _, rfl, _, rfl, _, ⟨_, ⟨admits, rfl⟩, rfl⟩, _, rfl, _, rfl, -,
      afterEq⟩
    exact ⟨⟨valid, meeting, admits⟩, afterEq⟩
  · rintro ⟨accepts, afterEq⟩
    exact ⟨⟨⟩, accepts.valid, ⟨⟩, accepts.meeting, _, rfl, _, rfl, _,
      ⟨_, ⟨accepts.admits, rfl⟩, rfl⟩, _, rfl, _, rfl, trivial, afterEq⟩

/-- A delivery is refused and changes nothing, or stores its version. -/
theorem upsertClaimVersionRequest_cases (host : StoreHost) (meetingId : String) (now : Int)
    (setCurrent : value.setCurrent) (db : MeetingsDb) : (¬AcceptsUpsert host meetingId value db ∧
        upsertClaimVersionRequest host meetingId now value db = db) ∨
      AcceptsUpsert host meetingId value db ∧
        upsertClaimVersionRequest host meetingId now value db =
          db.withCurrentVersion host meetingId now value := by
  unfold upsertClaimVersionRequest applyClaims
  rcases transaction_cases (applyClaimsChanges host now (claimVersionRequest meetingId value)) db
    with ⟨error, served, failed⟩ | ⟨result, changed, served, applied⟩
  · left
    rw [served]
    refine ⟨fun accepts => ?_, rfl⟩
    have succeeds : applyClaimsChanges host now (claimVersionRequest meetingId value) db =
        .ok (⟨⟩, db.withCurrentVersion host meetingId now value) :=
      (applyClaimsChanges_single setCurrent).mpr ⟨accepts, rfl⟩
    rw [succeeds] at failed
    cases failed
  · right
    rw [served]
    obtain ⟨accepts, rfl⟩ := (applyClaimsChanges_single setCurrent).mp applied
    exact ⟨accepts, rfl⟩

/-! ## Update times -/

def ClaimRow.touched (claimId : String) (now : Int) (claim : ClaimRow) : ClaimRow :=
  { claim with updatedAtMs := if claim.id = claimId then now else claim.updatedAtMs }

/-- A database after a meeting and a claim were touched. -/
def MeetingsDb.touchClaim (meetingId claimId : String) (now : Int) (db : MeetingsDb) : MeetingsDb :=
  { db with
    claims := { db.claims with
      claims := db.claims.claims.map (ClaimRow.touched claimId now) } }.touch meetingId now

theorem MeetingsDb.withoutUpdateTimes_touchClaim (meetingId claimId : String) (now : Int)
    (db : MeetingsDb) :
    (db.touchClaim meetingId claimId now).withoutUpdateTimes = db.withoutUpdateTimes := by
  have meetings : (updateWhere (fun meeting => meeting.id = meetingId)
      (fun meeting => { meeting with updatedAtMs := now }) db.meetings).map
        (fun meeting => { meeting with updatedAtMs := 0 }) =
      db.meetings.map fun meeting => { meeting with updatedAtMs := 0 } :=
    map_updateWhere fun _ => rfl
  simp only [withoutUpdateTimes, touchClaim, touch, meetings, map_map]
  rfl

/-- The checks do not read update times. -/
theorem AcceptsUpsert.of_touchClaim
    (accepts : AcceptsUpsert host meetingId value (db.touchClaim meetingId claimId now)) :
    AcceptsUpsert host meetingId value db := by
  have found (id : String) :
      lookup ClaimRow.id (db.touchClaim meetingId claimId now).claims.claims id =
        (lookup ClaimRow.id db.claims.claims id).map (ClaimRow.touched claimId now) := by
    have kept : ∀ row, (ClaimRow.touched claimId now row).id = row.id := fun _ => rfl
    exact lookup_map kept db.claims.claims id
  constructor
  · exact accepts.valid
  · rw [← accepts.meeting]
    have kept : db.KeepsMeetings (db.touch meetingId now) := map_updateWhere fun _ => rfl
    exact (getMeeting_of_keepsMeetings kept).symm
  · obtain ⟨references, claim, version⟩ := accepts.admits
    constructor
    · refine ⟨references.manualRequest, references.speaker, references.source, ?_⟩
      intro versionId member
      have related := references.related versionId member
      unfold ensureClaimVersionRelationship at related ⊢
      rw [show (db.touchClaim meetingId claimId now).claims.versions = db.claims.versions
        from rfl] at related
      cases stored : lookup ClaimVersionRow.id db.claims.versions versionId with
      | none => simp [stored] at related
      | some version =>
        simp only [stored, found] at related ⊢
        cases owner : lookup ClaimRow.id db.claims.claims version.claimId with
        | none => simp [owner] at related
        | some row =>
          simp only [owner] at related
          exact related
    · constructor
      · intro stored isStored
        exact claim.same (stored.touched claimId now)
          ((found value.claimId).trans (congrArg _ isStored))
      · intro key isKey row member sameMeeting sameKey
        have touched : row.touched claimId now ∈
            db.claims.claims.map (ClaimRow.touched claimId now) :=
          mem_map_of_mem member
        exact claim.duplicateKey key isKey (row.touched claimId now) touched sameMeeting sameKey
    · exact ⟨version.same, version.number, version.segments⟩

/-! ## The last stored submission -/

/-- The rows of a claim as the last stored submission leaves them. -/
structure HoldsLast (claimId : String) (last : MeetingClaimVersionUpsertDto) (db : MeetingsDb) :
    Prop where
  sameClaim : last.claimId = claimId
  setCurrent : last.setCurrent
  exists_claim : ∃ claim ∈ db.claims.claims, claim.id = claimId
  claim : ∀ claim ∈ db.claims.claims, claim.id = claimId →
    (last.duplicateKey <|> claim.duplicateKey) = claim.duplicateKey ∧
      claim.status = last.status ∧ claim.currentClaimVersionId = some last.claimVersionId
  exists_version : ∃ version ∈ db.claims.versions, version.id = last.claimVersionId
  version : ∀ version ∈ db.claims.versions, version.id = last.claimVersionId →
    version.claimId = claimId ∧ version.versionNumber = last.versionNumber.toNat ∧
      version.lifecycle = last.lifecycle ∧
        (last.supersededById <|> version.supersededById) = version.supersededById
  predecessor : ∀ predecessorId ∈ last.predecessorId, ∀ version ∈ db.claims.versions,
    version.id = predecessorId →
      version.lifecycle = .superseded ∧ version.supersededById = some last.claimVersionId
  chain : ∀ version ∈ db.claims.versions, version.claimId = claimId →
    version.id ≠ last.claimVersionId →
      version.versionNumber < last.versionNumber.toNat ∧
        ∃ successor ∈ db.claims.versions, version.supersededById = some successor.id ∧
          successor.claimId = claimId ∧ version.versionNumber < successor.versionNumber
  unique : ∀ version ∈ db.claims.versions, version.claimId = claimId →
    ∀ other ∈ db.claims.versions, other.id = version.id → other = version

theorem updateWhere_eq_self {ρ : Type} {condition : ρ → Bool} {change : ρ → ρ} {table : List ρ}
    (unchanged : ∀ row ∈ table, condition row → change row = row) :
    updateWhere condition change table = table := by
  refine (map_congr_left fun row member => ?_).trans (map_id table)
  by_cases holds : condition row = true
  · rw [if_pos holds]
    exact unchanged row member holds
  · rw [if_neg holds]
    rfl

/-- Submitting the last stored version again touches the claim, and no more. -/
theorem HoldsLast.withCurrentVersion (holds : HoldsLast claimId last db) :
    db.withCurrentVersion host meetingId now last = db.touchClaim meetingId claimId now := by
  obtain rfl := holds.sameClaim
  obtain ⟨anyClaim, anyMember, isAny⟩ := holds.exists_claim
  obtain ⟨anyVersion, versionMember, isVersion⟩ := holds.exists_version
  obtain ⟨claim, claimFound⟩ :
      ∃ claim, lookup ClaimRow.id db.claims.claims last.claimId = some claim :=
    isAny ▸ exists_lookup_of_mem anyMember
  obtain ⟨version, versionFound⟩ : ∃ version,
      lookup ClaimVersionRow.id db.claims.versions last.claimVersionId = some version :=
    isVersion ▸ exists_lookup_of_mem versionMember
  have claims : claimsWithUpsert now meetingId last db.claims.claims =
      db.claims.claims.map (ClaimRow.touched last.claimId now) := by
    unfold claimsWithUpsert
    rw [claimFound]
    apply map_congr_left
    intro row member
    by_cases isClaim : row.id = last.claimId
    · obtain ⟨key, status, -⟩ := holds.claim row member isClaim
      simp [isClaim, ClaimRow.withUpsert, ClaimRow.touched, key, status]
    · simp [isClaim, ClaimRow.touched]
  have versions : versionsWithUpsert host now last db.claims.versions = db.claims.versions := by
    unfold versionsWithUpsert
    rw [versionFound]
    apply updateWhere_eq_self
    intro row member isVersion
    obtain ⟨-, -, lifecycle, superseded⟩ := holds.version row member (of_decide_eq_true isVersion)
    rw [← lifecycle, superseded]
  have segments : segmentsWithUpsert last db.claims.versions db.claims.versionSegments =
      db.claims.versionSegments := by
    unfold segmentsWithUpsert
    rw [versionFound]
  have kept : ∀ row, (ClaimRow.touched last.claimId now row).id = row.id := fun _ => rfl
  obtain ⟨claimMember, isClaim⟩ := lookup_eq_some claimFound
  obtain ⟨-, -, isCurrent⟩ := holds.claim claim claimMember isClaim
  have previous : ((lookup ClaimRow.id (db.claims.claims.map (ClaimRow.touched last.claimId now))
      last.claimId).bind ClaimRow.currentClaimVersionId).filter
        (fun versionId => versionId ≠ last.claimVersionId) = none := by
    rw [lookup_map kept, claimFound]
    simp [ClaimRow.touched, isCurrent]
  have superseded : (last.predecessorId.toList.foldl
      (fun tables versionId => supersede tables versionId last.claimVersionId)
        { db.claims with claims := db.claims.claims.map (ClaimRow.touched last.claimId now) }) =
      { db.claims with claims := db.claims.claims.map (ClaimRow.touched last.claimId now) } := by
    cases isPredecessor : last.predecessorId with
    | none => rfl
    | some predecessorId =>
      simp only [Option.toList_some, foldl_cons, foldl_nil, supersede]
      congr 1
      apply updateWhere_eq_self
      intro row member isRow
      obtain ⟨lifecycle, successor⟩ :=
        holds.predecessor predecessorId isPredecessor row member (of_decide_eq_true isRow)
      rw [← lifecycle, ← successor]
  unfold MeetingsDb.withCurrentVersion MeetingsDb.touchClaim ClaimTables.withUpsert
    setCurrentVersion
  simp only [claims, versions, segments, previous, Option.toList_none, nil_append, superseded]
  congr 3
  apply updateWhere_eq_self
  intro row member isRow
  obtain ⟨before, beforeMember, rfl⟩ := mem_map.mp member
  have isClaim : before.id = last.claimId := of_decide_eq_true isRow
  obtain ⟨-, status, current⟩ := holds.claim before beforeMember isClaim
  simp [ClaimRow.touched, isClaim, status, current]

theorem HoldsLast.touchClaim (holds : HoldsLast claimId last db) :
    HoldsLast claimId last (db.touchClaim meetingId claimId now) where
  sameClaim := holds.sameClaim
  setCurrent := holds.setCurrent
  exists_claim := by
    obtain ⟨claim, member, isClaim⟩ := holds.exists_claim
    exact ⟨claim.touched claimId now, mem_map_of_mem member, isClaim⟩
  claim := by
    intro claim member isClaim
    obtain ⟨before, beforeMember, rfl⟩ := mem_map.mp member
    exact holds.claim before beforeMember isClaim
  exists_version := holds.exists_version
  version := holds.version
  predecessor := holds.predecessor
  chain := holds.chain
  unique := holds.unique

/-! ## A new version -/

def ClaimVersionRow.superseding (versionIds : List String) (successorId : String)
    (version : ClaimVersionRow) : ClaimVersionRow :=
  if version.id ∈ versionIds then
    { version with lifecycle := .superseded, supersededById := some successorId }
  else version

section Superseding

variable {versionIds : List String} {successorId : String} {version : ClaimVersionRow}

@[simp]
theorem ClaimVersionRow.id_superseding :
    (version.superseding versionIds successorId).id = version.id := by
  unfold superseding
  split <;> rfl

@[simp]
theorem ClaimVersionRow.claimId_superseding :
    (version.superseding versionIds successorId).claimId = version.claimId := by
  unfold superseding
  split <;> rfl

@[simp]
theorem ClaimVersionRow.versionNumber_superseding :
    (version.superseding versionIds successorId).versionNumber = version.versionNumber := by
  unfold superseding
  split <;> rfl

theorem foldl_supersede (versionIds : List String) (successorId : String) (tables : ClaimTables) :
    versionIds.foldl (fun tables versionId => supersede tables versionId successorId) tables =
      { tables with
        versions := tables.versions.map (ClaimVersionRow.superseding versionIds successorId) } := by
  induction versionIds generalizing tables with
  | nil =>
    have unchanged : ClaimVersionRow.superseding [] successorId = id := by
      funext version
      simp [ClaimVersionRow.superseding]
    rw [unchanged, map_id]
    rfl
  | cons versionId rest ih =>
    rw [foldl_cons, ih]
    simp only [supersede, updateWhere, map_map]
    congr 1
    apply map_congr_left
    intro version _
    by_cases first : version.id = versionId
    · simp [ClaimVersionRow.superseding, first]
    · simp [ClaimVersionRow.superseding, first]

end Superseding

/-- The versions that a version made current supersedes. -/
def supersededIds (value : MeetingClaimVersionUpsertDto) (tables : ClaimTables) : List String :=
  (((lookup ClaimRow.id tables.claims value.claimId).bind
    ClaimRow.currentClaimVersionId).filter (· ≠ value.claimVersionId)).toList ++
      value.predecessorId.toList

/-- The claim with a version made current. -/
def ClaimRow.withCurrent (now : Int) (value : MeetingClaimVersionUpsertDto) (claim : ClaimRow) :
    ClaimRow :=
  { claim with
    currentClaimVersionId := some value.claimVersionId
    status := value.status
    updatedAtMs := now }

theorem setCurrentVersion_eq (now : Int) (value : MeetingClaimVersionUpsertDto)
    (tables : ClaimTables) : setCurrentVersion now value tables =
      { tables with
        versions := tables.versions.map
          (ClaimVersionRow.superseding (supersededIds value tables) value.claimVersionId)
        claims := updateWhere (fun claim => claim.id = value.claimId)
          (ClaimRow.withCurrent now value) tables.claims } := by
  unfold setCurrentVersion
  simp only [foldl_supersede]
  rfl

theorem exists_mem_claimsWithUpsert (now : Int) (meetingId : String)
    (value : MeetingClaimVersionUpsertDto) (claims : List ClaimRow) :
    ∃ claim ∈ claimsWithUpsert now meetingId value claims, claim.id = value.claimId := by
  unfold claimsWithUpsert
  cases found : lookup ClaimRow.id claims value.claimId with
  | none => exact ⟨_, mem_append_right _ (mem_singleton_self _), rfl⟩
  | some claim =>
    obtain ⟨member, isClaim⟩ := lookup_eq_some found
    refine ⟨claim.withUpsert now value, ?_, isClaim⟩
    exact mem_updateWhere.mpr ⟨claim, member, by simp [isClaim]⟩

theorem duplicateKey_of_mem_claimsWithUpsert {claims : List ClaimRow} {claim : ClaimRow}
    (member : claim ∈ claimsWithUpsert now meetingId value claims)
    (isClaim : claim.id = value.claimId) :
    (value.duplicateKey <|> claim.duplicateKey) = claim.duplicateKey := by
  unfold claimsWithUpsert at member
  cases found : lookup ClaimRow.id claims value.claimId with
  | none =>
    rw [found] at member
    rcases mem_append.mp member with stored | isNew
    · exact absurd (isClaim ▸ mem_map_of_mem stored) (lookup_eq_none_iff.mp found)
    · rw [mem_singleton.mp isNew]
      cases isKey : value.duplicateKey <;> simp [ClaimRow.ofUpsert, isKey]
  | some stored =>
    rw [found] at member
    obtain ⟨before, -, rfl⟩ := mem_updateWhere.mp member
    by_cases same : before.id = value.claimId
    · cases isKey : value.duplicateKey <;> simp [same, ClaimRow.withUpsert, isKey]
    · simp only [same, decide_false, Bool.false_eq_true, if_false] at isClaim

/-- The claim has no rows yet. -/
structure Untouched (claimId : String) (db : MeetingsDb) : Prop where
  claims : ∀ claim ∈ db.claims.claims, claim.id ≠ claimId
  versions : ∀ version ∈ db.claims.versions, version.claimId ≠ claimId

/-- The rows of the claim before a submission: none, or those of an earlier one. -/
def HoldsEarlier (claimId : String) (db : MeetingsDb) : Prop :=
  Untouched claimId db ∨ ∃ last, HoldsLast claimId last db

/-- The version that a new one takes the place of. -/
theorem HoldsEarlier.previous (earlier : HoldsEarlier claimId db) (now : Int) (meetingId : String)
    (sameClaim : value.claimId = claimId)
    (absent : lookup ClaimVersionRow.id db.claims.versions value.claimVersionId = none) :
    ∀ version ∈ db.claims.versions, version.claimId = claimId →
      some version.id = ((lookup ClaimRow.id (claimsWithUpsert now meetingId value db.claims.claims)
        value.claimId).bind ClaimRow.currentClaimVersionId).filter
          (fun versionId => versionId ≠ value.claimVersionId) ∨
        ∃ successor ∈ db.claims.versions, version.supersededById = some successor.id ∧
          successor.claimId = claimId ∧ version.versionNumber < successor.versionNumber := by
  intro version member ofClaim
  rcases earlier with untouched | ⟨last, holds⟩
  · exact absurd ofClaim (untouched.versions version member)
  · by_cases isLast : version.id = last.claimVersionId
    · left
      obtain ⟨claim, claimMember, isClaim⟩ := holds.exists_claim
      obtain ⟨stored, found⟩ :
          ∃ stored, lookup ClaimRow.id db.claims.claims value.claimId = some stored :=
        sameClaim ▸ isClaim ▸ exists_lookup_of_mem claimMember
      obtain ⟨storedMember, isStored⟩ := lookup_eq_some found
      obtain ⟨-, -, isCurrent⟩ := holds.claim stored storedMember (isStored.trans sameClaim)
      have kept : ∀ row, (ClaimRow.withUpsert now value row).id = row.id := fun _ => rfl
      have differ : last.claimVersionId ≠ value.claimVersionId := by
        intro same
        apply lookup_eq_none_iff.mp absent
        rw [← same, ← isLast]
        exact mem_map_of_mem member
      unfold claimsWithUpsert
      rw [found]
      rw [lookup_updateWhere kept, found]
      simp [isStored, ClaimRow.withUpsert, isCurrent, differ, isLast, Option.filter]
    · exact .inr (holds.chain version member ofClaim isLast).2

theorem HoldsEarlier.unique (earlier : HoldsEarlier claimId db) :
    ∀ version ∈ db.claims.versions, version.claimId = claimId →
      ∀ other ∈ db.claims.versions, other.id = version.id → other = version := by
  rcases earlier with untouched | ⟨last, holds⟩
  · intro version member ofClaim
    exact absurd ofClaim (untouched.versions version member)
  · exact holds.unique

/-- A new version joins the stored ones, of which it supersedes some. -/
theorem mem_versions_withCurrentVersion {superseded : List String}
    (isSuperseded :
      superseded = supersededIds value (db.claims.withUpsert host now meetingId value))
    (absent : lookup ClaimVersionRow.id db.claims.versions value.claimVersionId = none)
    (notOwn : ∀ predecessorId ∈ value.predecessorId, predecessorId ≠ value.claimVersionId)
    {version : ClaimVersionRow} :
    version ∈ (db.withCurrentVersion host meetingId now value).claims.versions ↔
      (∃ before ∈ db.claims.versions,
        before.superseding superseded value.claimVersionId = version) ∨
        version = ClaimVersionRow.ofUpsert host value now := by
  have notSuperseded : value.claimVersionId ∉ superseded := by
    rw [isSuperseded, supersededIds, mem_append, not_or]
    constructor
    · simp
    · intro isPredecessor
      exact notOwn _ (Option.mem_toList.mp isPredecessor) rfl
  have ownRow : (ClaimVersionRow.ofUpsert host value now).superseding superseded
      value.claimVersionId = ClaimVersionRow.ofUpsert host value now := if_neg notSuperseded
  have versions : (db.withCurrentVersion host meetingId now value).claims.versions =
      (db.claims.versions ++ [ClaimVersionRow.ofUpsert host value now]).map
        (ClaimVersionRow.superseding superseded value.claimVersionId) := by
    simp only [MeetingsDb.withCurrentVersion, MeetingsDb.touch, setCurrentVersion_eq,
      ClaimTables.withUpsert, versionsWithUpsert, absent, isSuperseded]
  rw [versions, map_append, mem_append, mem_map, map_singleton, ownRow, mem_singleton]

open ClaimVersionRow (claimId_superseding id_superseding versionNumber_superseding)

/-- A stored new version makes its submission the last one. -/
theorem HoldsEarlier.store (earlier : HoldsEarlier claimId db) (sameClaim : value.claimId = claimId)
    (setCurrent : value.setCurrent)
    (newer : ∀ version ∈ db.claims.versions, version.claimId = claimId →
      version.versionNumber < value.versionNumber.toNat)
    (admits : Admits host meetingId db value db.claims) :
    HoldsLast claimId value (db.withCurrentVersion host meetingId now value) := by
  have absent : lookup ClaimVersionRow.id db.claims.versions value.claimVersionId = none := by
    apply Option.eq_none_iff_forall_ne_some.mpr
    intro stored found
    obtain ⟨ofClaim, number, -⟩ := admits.version.same stored found
    have below := newer stored (lookup_eq_some found).1 (ofClaim.trans sameClaim)
    exact below.ne number
  have notStored : ∀ version ∈ db.claims.versions, version.id ≠ value.claimVersionId := by
    intro version member same
    exact lookup_eq_none_iff.mp absent (same ▸ mem_map_of_mem member)
  have related : ∀ predecessorId ∈ value.predecessorId,
      predecessorId ≠ value.claimVersionId := by
    rintro predecessorId isPredecessor rfl
    have checked := admits.references.related value.claimVersionId
      (mem_append_left _ (Option.mem_toList.mpr isPredecessor))
    simp [ensureClaimVersionRelationship, absent] at checked
  have previous := earlier.previous now meetingId sameClaim absent
  have stored : (db.withCurrentVersion host meetingId now value).claims.claims =
      updateWhere (fun claim => claim.id = value.claimId) (ClaimRow.withCurrent now value)
        (claimsWithUpsert now meetingId value db.claims.claims) := by
    simp only [MeetingsDb.withCurrentVersion, MeetingsDb.touch, setCurrentVersion_eq,
      ClaimTables.withUpsert]
  obtain ⟨superseded, isSuperseded⟩ : ∃ superseded,
      superseded = supersededIds value (db.claims.withUpsert host now meetingId value) := ⟨_, rfl⟩
  have mem_versions {version : ClaimVersionRow} :=
    @mem_versions_withCurrentVersion now meetingId value host db superseded isSuperseded absent
      related version
  constructor
  case sameClaim => exact sameClaim
  case setCurrent => exact setCurrent
  case exists_claim =>
    obtain ⟨claim, member, isClaim⟩ :=
      exists_mem_claimsWithUpsert now meetingId value db.claims.claims
    rw [stored]
    exact ⟨_, mem_updateWhere.mpr ⟨claim, member, rfl⟩,
      by simp [isClaim, sameClaim, ClaimRow.withCurrent]⟩
  case claim =>
    rw [stored]
    intro claim member isClaim
    obtain ⟨before, beforeMember, rfl⟩ := mem_updateWhere.mp member
    by_cases same : before.id = value.claimId
    · have key := duplicateKey_of_mem_claimsWithUpsert beforeMember same
      simp [same, key, ClaimRow.withCurrent]
    · simp [same, ← sameClaim] at isClaim
  case exists_version =>
    exact ⟨_, mem_versions.mpr (.inr rfl), rfl⟩
  case version =>
    intro version member isVersion
    rcases mem_versions.mp member with ⟨before, beforeMember, rfl⟩ | rfl
    · exact absurd isVersion (by simpa using notStored before beforeMember)
    · refine ⟨sameClaim, rfl, rfl, ?_⟩
      cases isSuccessor : value.supersededById <;> simp [ClaimVersionRow.ofUpsert, isSuccessor]
  case predecessor =>
    intro predecessorId isPredecessor version member isVersion
    have listed : predecessorId ∈ superseded :=
      isSuperseded ▸ mem_append_right _ (Option.mem_toList.mpr isPredecessor)
    rcases mem_versions.mp member with ⟨before, beforeMember, rfl⟩ | rfl
    · rw [id_superseding] at isVersion
      simp [ClaimVersionRow.superseding, isVersion, listed]
    · exact absurd isVersion.symm (related predecessorId isPredecessor)
  case chain =>
    intro version member ofClaim notLast
    rcases mem_versions.mp member with ⟨before, beforeMember, rfl⟩ | rfl
    · rw [claimId_superseding] at ofClaim
      rw [versionNumber_superseding]
      have below := newer before beforeMember ofClaim
      refine ⟨below, ?_⟩
      by_cases listed : before.id ∈ superseded
      · refine ⟨_, mem_versions.mpr (.inr rfl), ?_, sameClaim, below⟩
        simp [ClaimVersionRow.superseding, listed, ClaimVersionRow.ofUpsert]
      · rcases previous before beforeMember ofClaim with isPrevious | chained
        · exact absurd (isSuperseded ▸ mem_append_left _
            (Option.mem_toList.mpr isPrevious.symm)) listed
        · obtain ⟨successor, successorMember, link, successorOfClaim, higher⟩ := chained
          refine ⟨_, mem_versions.mpr (.inl ⟨successor, successorMember, rfl⟩), ?_⟩
          simp only [id_superseding, claimId_superseding,
            versionNumber_superseding]
          refine ⟨?_, successorOfClaim, higher⟩
          rw [ClaimVersionRow.superseding, if_neg listed]
          exact link
    · exact absurd rfl notLast
  case unique =>
    intro version member ofClaim other otherMember same
    rcases mem_versions.mp member with ⟨before, beforeMember, rfl⟩ | rfl
    · rcases mem_versions.mp otherMember with ⟨otherBefore, otherBeforeMember, rfl⟩ | rfl
      · simp only [id_superseding, claimId_superseding]
          at same ofClaim
        rw [earlier.unique before beforeMember ofClaim otherBefore otherBeforeMember same]
      · rw [id_superseding] at same
        exact absurd same.symm (notStored before beforeMember)
    · rcases mem_versions.mp otherMember with ⟨otherBefore, otherBeforeMember, rfl⟩ | rfl
      · rw [id_superseding] at same
        exact absurd same (notStored otherBefore otherBeforeMember)
      · rfl

/-! ## Runs -/

/-- What the rows of the claim say about the submissions so far: a submission
below which no version is stored is the last one, or is refused. -/
structure TracksSubmissions (host : StoreHost) (meetingId claimId : String)
    (config : Config MeetingsDb MeetingClaimVersionUpsertDto) : Prop where
  setCurrent : ∀ value ∈ config.trace, value.setCurrent
  rows : Untouched claimId config.state ∨ ∃ last ∈ config.trace, HoldsLast claimId last config.state
  settled : ∀ value ∈ config.trace, NoneHigher claimId config.state value →
    HoldsLast claimId value config.state ∨ ¬AcceptsUpsert host meetingId value config.state

theorem HoldsLast.noneHigher (holds : HoldsLast claimId last db) : NoneHigher claimId db last := by
  intro version member ofClaim
  by_cases isLast : version.id = last.claimVersionId
  · exact (holds.version version member isLast).2.1.le
  · exact (holds.chain version member ofClaim isLast).1.le

theorem TracksSubmissions.step {next : Config MeetingsDb MeetingClaimVersionUpsertDto}
    {upsert : ClaimUpsert} (tracks : TracksSubmissions host meetingId claimId config)
    (advanced : advance (deliver host meetingId) config upsert = some next)
    (admitted : beforeHigher claimId config upsert next) :
    TracksSubmissions host meetingId claimId next := by
  rcases upsert with ⟨now, value⟩
  obtain ⟨⟨sameClaim, setCurrent, submitted⟩, noneHigher⟩ := admitted
  obtain ⟨_, stepped, traced⟩ := advance_eq_some_iff.mp advanced
  simp only [deliver, Option.some.injEq, Prod.mk.injEq] at stepped
  obtain ⟨served, rfl⟩ := stepped
  have allCurrent : ∀ other ∈ next.trace, other.setCurrent := by
    rw [traced, forall_mem_append]
    exact ⟨tracks.setCurrent, by simpa using setCurrent⟩
  have earlierRows : Untouched claimId config.state ∨
      ∃ last ∈ next.trace, HoldsLast claimId last config.state := by
    refine tracks.rows.imp_right ?_
    rintro ⟨last, member, holds⟩
    exact ⟨last, traced ▸ mem_append_left _ member, holds⟩
  rcases upsertClaimVersionRequest_cases host meetingId now setCurrent config.state with
    ⟨refused, unchanged⟩ | ⟨accepts, stored⟩
  · rw [unchanged] at served
    constructor
    · exact allCurrent
    · rw [← served]
      exact earlierRows
    · rw [← served, traced, forall_mem_append]
      exact ⟨tracks.settled, by simpa using fun _ => .inr refused⟩
  · rw [stored] at served
    by_cases again : value ∈ config.trace
    · have holds : HoldsLast claimId value config.state :=
        (tracks.settled value again noneHigher).resolve_right (not_not.mpr accepts)
      rw [holds.withCurrentVersion] at served
      constructor
      · exact allCurrent
      · rw [← served, traced]
        exact .inr ⟨value, mem_append_left _ again, holds.touchClaim⟩
      · rw [← served]
        intro other member noneHigher
        have earlier : other ∈ config.trace := by
          rcases mem_append.mp (traced ▸ member) with earlier | isLast
          · exact earlier
          · rw [mem_singleton.mp isLast]
            exact again
        rcases tracks.settled other earlier noneHigher with isLast | refused
        · exact .inl isLast.touchClaim
        · exact .inr fun accepts => refused accepts.of_touchClaim
    · have higher := submitted.resolve_left again
      have newer : ∀ version ∈ config.state.claims.versions, version.claimId = claimId →
          version.versionNumber < value.versionNumber.toNat := by
        intro version member ofClaim
        rcases tracks.rows with untouched | ⟨last, lastMember, holds⟩
        · exact absurd ofClaim (untouched.versions version member)
        · have below := holds.noneHigher version member ofClaim
          have above : last.versionNumber.toNat < value.versionNumber.toNat :=
            UInt32.lt_iff_toNat_lt.mp (higher last lastMember)
          omega
      have earlier : HoldsEarlier claimId config.state :=
        tracks.rows.imp_right fun ⟨last, _, holds⟩ => ⟨last, holds⟩
      have holds : HoldsLast claimId value next.state := by
        rw [← served]
        exact earlier.store sameClaim setCurrent newer accepts.admits
      constructor
      · exact allCurrent
      · exact .inr ⟨value, by simp [traced], holds⟩
      · intro other member noneHigher
        rcases mem_append.mp (traced ▸ member) with earlier | isLast
        · obtain ⟨version, versionMember, isVersion⟩ := holds.exists_version
          obtain ⟨ofClaim, number, -⟩ := holds.version version versionMember isVersion
          have below := noneHigher version versionMember ofClaim
          have above : other.versionNumber.toNat < value.versionNumber.toNat :=
            UInt32.lt_iff_toNat_lt.mp (higher other earlier)
          omega
        · rw [mem_singleton.mp isLast]
          exact .inl holds

theorem HoldsLast.currentVersionId (holds : HoldsLast claimId last db) :
    db.currentVersionId claimId = some last.claimVersionId := by
  obtain ⟨claim, member, isClaim⟩ := holds.exists_claim
  obtain ⟨stored, found⟩ : ∃ stored, lookup ClaimRow.id db.claims.claims claimId = some stored :=
    isClaim ▸ exists_lookup_of_mem member
  obtain ⟨storedMember, isStored⟩ := lookup_eq_some found
  unfold MeetingsDb.currentVersionId
  rw [found]
  exact (holds.claim stored storedMember isStored).2.2

theorem HoldsLast.currentIsHighest (holds : HoldsLast claimId last db) :
    CurrentIsHighest claimId db := by
  intro version member ofClaim
  obtain ⟨current, currentMember, isCurrent⟩ := holds.exists_version
  obtain ⟨currentOfClaim, number, -⟩ := holds.version current currentMember isCurrent
  refine ⟨current, currentMember, currentOfClaim, ?_, ?_⟩
  · rw [isCurrent]
    exact holds.currentVersionId
  · rw [number]
    exact holds.noneHigher version member ofClaim

theorem HoldsLast.leadsToCurrent (holds : HoldsLast claimId last db) :
    LeadsToCurrent claimId db := by
  intro version member ofClaim
  refine ⟨last.claimVersionId, holds.currentVersionId, ?_⟩
  -- each link raises the version number, which is bounded by that of the last submission
  induction rank : (last.versionNumber.toNat - version.versionNumber).toNat using
    Nat.strong_induction_on generalizing version with
  | _ rank ih =>
    by_cases isLast : version.id = last.claimVersionId
    · rw [isLast]
    · obtain ⟨below, successor, successorMember, link, successorOfClaim, higher⟩ :=
        holds.chain version member ofClaim isLast
      have found : lookup ClaimVersionRow.id db.claims.versions version.id = some version := by
        obtain ⟨stored, found⟩ : ∃ stored, lookup ClaimVersionRow.id db.claims.versions
            version.id = some stored :=
          exists_lookup_of_mem member
        obtain ⟨storedMember, same⟩ := lookup_eq_some found
        rw [found, holds.unique version member ofClaim stored storedMember same]
      have continued := ih (last.versionNumber.toNat - successor.versionNumber).toNat
        (by omega) successor successorMember successorOfClaim rfl
      refine Relation.ReflTransGen.head ?_ continued
      simp only [MeetingsDb.SupersededBy, found, Option.bind_some, link]

theorem tracksSubmissions_of_reaches (untouched : Untouched claimId db)
    (reaches : Reaches (deliver host meetingId) (beforeHigher claimId) db config) :
    TracksSubmissions host meetingId claimId config := by
  refine reaches.invariant (TracksSubmissions host meetingId claimId) ?_ ?_
  · exact ⟨by simp, .inl untouched, by simp⟩
  · intro config next upsert _ tracks advanced admitted
    exact tracks.step advanced admitted

/-- Whatever else the database holds: as long as no version is submitted again
after a higher one was stored, the current version is the highest, the links
lead to it, and a repeated delivery changes nothing but update times. -/
theorem claimChain_survives (host : StoreHost) (meetingId claimId : String) (db : MeetingsDb)
    (untouched : Untouched claimId db) (config : Config MeetingsDb MeetingClaimVersionUpsertDto)
    (reaches : Reaches (deliver host meetingId) (beforeHigher claimId) db config) :
    SurvivesPromptRedelivery host meetingId claimId config := by
  have tracks := tracksSubmissions_of_reaches untouched reaches
  constructor
  · rcases tracks.rows with none | ⟨last, -, holds⟩
    · intro version member ofClaim
      exact absurd ofClaim (none.versions version member)
    · exact holds.currentIsHighest
  · rcases tracks.rows with none | ⟨last, -, holds⟩
    · intro version member ofClaim
      exact absurd ofClaim (none.versions version member)
    · exact holds.leadsToCurrent
  · intro value member noneHigher now
    rcases upsertClaimVersionRequest_cases host meetingId now (tracks.setCurrent value member)
      config.state with ⟨-, unchanged⟩ | ⟨accepts, stored⟩
    · rw [unchanged]
    · have holds := (tracks.settled value member noneHigher).resolve_right (not_not.mpr accepts)
      rw [stored, holds.withCurrentVersion, MeetingsDb.withoutUpdateTimes_touchClaim]

/-! ## Recorded runs -/

instance (claimId : String) : ∀ config upsert next,
    Decidable (submittedInOrder claimId config upsert next) :=
  fun _ _ _ => inferInstanceAs (Decidable (_ ∧ _ ∧ (_ ∨ _)))

instance (claimId : String) (db : MeetingsDb) (value : MeetingClaimVersionUpsertDto) :
    Decidable (NoneHigher claimId db value) :=
  inferInstanceAs (Decidable (∀ version ∈ db.claims.versions, _))

instance (claimId : String) : ∀ config upsert next,
    Decidable (beforeHigher claimId config upsert next) :=
  fun _ _ _ => inferInstanceAs (Decidable (_ ∧ _))

def recordedClaimId : String := "7d1f6c52-6a0e-4f5c-8e1a-2b3c4d5e6f01"

/-- The version of a claim with a number and an identifier. -/
def recordedClaimVersion (claimVersionId : String) (versionNumber : UInt32) :
    MeetingClaimVersionUpsertDto where
  claimId := recordedClaimId
  claimVersionId
  manualRequestId := none
  origin := .automatic
  duplicateKey := none
  status := .detected
  versionNumber
  predecessorId := none
  supersededById := none
  sourceTranscriptVersionId := none
  exactQuote := "The sky is blue."
  normalizedClaim := "The sky is blue."
  speakerId := none
  startMs := none
  endMs := none
  segmentIds := []
  selectionRationale := none
  consequenceScore := none
  disputeScore := none
  specificityScore := none
  timeSensitive := false
  lifecycle := .active
  setCurrent := true

/-- Two versions, each delivered twice before the next. -/
def promptUpserts : List ClaimUpsert :=
  [⟨10, recordedClaimVersion "version-1" 1⟩, ⟨20, recordedClaimVersion "version-1" 1⟩,
    ⟨30, recordedClaimVersion "version-2" 2⟩, ⟨40, recordedClaimVersion "version-2" 2⟩]

theorem claimChain_survives_promptUpserts :
    ∃ config, exec (deliver recordedHost recordedMeetingId) (Config.initial recordedDb)
        promptUpserts = some config ∧
      SurvivesPromptRedelivery recordedHost recordedMeetingId recordedClaimId config := by
  obtain ⟨config, executed⟩ :=
    Option.isSome_iff_exists.mp (show (exec (deliver recordedHost recordedMeetingId)
      (Config.initial recordedDb) promptUpserts).isSome by decide +kernel)
  exact ⟨config, executed, claimChain_survives recordedHost recordedMeetingId recordedClaimId
    recordedDb ⟨by decide +kernel, by decide +kernel⟩ config
    (reaches_of_exec promptUpserts (by decide +kernel) executed)⟩

/-- The first version is delivered again after the second was stored. -/
def lateUpserts : List ClaimUpsert :=
  [⟨10, recordedClaimVersion "version-1" 1⟩, ⟨20, recordedClaimVersion "version-2" 2⟩,
    ⟨30, recordedClaimVersion "version-1" 1⟩]

/-- The late delivery takes the current version back, and after a first delivery already another
one writes the update times, although no version is higher. -/
theorem not_survivesRedelivery_lateUpserts :
    (∃ config, Reaches (deliver recordedHost recordedMeetingId) (submittedInOrder recordedClaimId)
        recordedDb config ∧
      ¬SurvivesRedelivery recordedHost recordedMeetingId recordedClaimId config) ∧
    ∃ config, Reaches (deliver recordedHost recordedMeetingId) (submittedInOrder recordedClaimId)
        recordedDb config ∧
      (∀ value ∈ config.trace, NoneHigher recordedClaimId config.state value) ∧
      ¬SurvivesRedelivery recordedHost recordedMeetingId recordedClaimId config := by
  refine ⟨?_, ?late⟩
  case late =>
    obtain ⟨config, reaches, traced, none, updated⟩ := exists_reaches_of_exec
      (deliver recordedHost recordedMeetingId) (submittedInOrder recordedClaimId) recordedDb
      (fun config => config.trace = [recordedClaimVersion "version-1" 1] ∧
        (∀ value ∈ config.trace, NoneHigher recordedClaimId config.state value) ∧
        (upsertClaimVersionRequest recordedHost recordedMeetingId 20
            (recordedClaimVersion "version-1" 1) config.state).claims.claims.map (·.updatedAtMs) ≠
          config.state.claims.claims.map (·.updatedAtMs))
      (lateUpserts.take 1) (by decide +kernel) (by decide +kernel)
    refine ⟨config, reaches, none, fun survives => updated ?_⟩
    rw [survives.unchanged _ (by simp [traced])]
  obtain ⟨config, reaches, stored, current⟩ := exists_reaches_of_exec
    (deliver recordedHost recordedMeetingId) (submittedInOrder recordedClaimId) recordedDb
    (fun config => (∃ version ∈ config.state.claims.versions,
        version.claimId = recordedClaimId ∧ version.versionNumber = 2) ∧
      ∀ version ∈ config.state.claims.versions,
        config.state.currentVersionId recordedClaimId = some version.id → version.versionNumber = 1)
    lateUpserts (by decide +kernel) (by decide +kernel)
  refine ⟨config, reaches, fun survives => ?_⟩
  obtain ⟨version, member, ofClaim, number⟩ := stored
  obtain ⟨highest, highestMember, -, isCurrent, above⟩ := survives.current version member ofClaim
  rw [current highest highestMember isCurrent, number] at above
  exact absurd above (by decide)

end Obelus.Meetings
