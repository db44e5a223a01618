import Obelus.Meetings.ClaimChain
import Obelus.Meetings.Refinement
import Obelus.Meetings.TranscriptConvergence

/-!
# What a refinement result leaves behind

A result that is applied leaves every column of each of its parts: its transcript version, the
newest of its segments with their replacements and its observations, its stale claim versions
and their replacements, the completed job and the canonical version.
-/

namespace Obelus.Meetings

open Obelus.Data
open List hiding lookup
open Validation
open SpeakerObservationRow (ofUpsert)

section Transcript

variable {host : StoreHost} {now : Int} {meetingId : String} {speakers : List SpeakerRow}

/-- A version has the content of a submission, with the start it had when none is submitted. -/
def TranscriptVersionRow.HasContent (meetingId : String)
    (value : MeetingTranscriptVersionUpsertDto) (stored : Option TranscriptVersionRow)
    (row : TranscriptVersionRow) : Prop :=
  row = { TranscriptVersionRow.ofUpsert meetingId value row.updatedAtMs with
    startedAtMs := value.startedAtMs <|> stored.bind TranscriptVersionRow.startedAtMs
    createdAtMs := row.createdAtMs }

/-- An observation has the content of a submission. -/
def SpeakerObservationRow.HasContent (meetingId : String)
    (value : MeetingSpeakerObservationUpsertDto) (row : SpeakerObservationRow) : Prop :=
  row = { ofUpsert meetingId value row.updatedAtMs with
    createdAtMs := row.createdAtMs }

def TranscriptTables.observation (tables : TranscriptTables) (id : String) :
    Option SpeakerObservationRow :=
  lookup SpeakerObservationRow.id tables.observations id

/-- Every observation is as it was or as a submission has it, and no older than any. -/
structure HoldsObservations (meetingId : String) (base : TranscriptTables)
    (done : List MeetingSpeakerObservationUpsertDto) (tables : TranscriptTables) : Prop where
  content : ∀ id, tables.observation id = base.observation id ∨
    ∃ row ∈ tables.observation id, ∃ submitted ∈ done,
      submitted.id = id ∧ row.HasContent meetingId submitted
  notOlder : ∀ submitted ∈ done, ∃ row ∈ tables.observation submitted.id,
    asI64 submitted.revisionNumber ≤ row.revisionNumber

theorem SpeakerObservationRow.id_merge (excluded stored : SpeakerObservationRow) :
    (merge excluded stored).id = stored.id := by
  unfold merge
  split <;> rfl

variable {before after base : TranscriptTables}

/-- An observation is written when it is new or newer, and kept otherwise. -/
theorem observation_upserted {value : MeetingSpeakerObservationUpsertDto}
    (upserted : upsertSpeakerObservation now meetingId speakers before value = .ok after) :
    (∀ id, id ≠ value.id → after.observation id = before.observation id) ∧
      ∃ row, after.observation value.id = some row ∧
        asI64 value.revisionNumber ≤ row.revisionNumber ∧
        (∀ stored ∈ before.observation value.id, stored.revisionNumber ≤ row.revisionNumber) ∧
          (before.observation value.id = some row ∨ row.HasContent meetingId value) := by
  simp only [upsertSpeakerObservation, bind_eq_ok_iff, pure_eq_ok_iff, ensure_eq_ok_iff]
    at upserted
  obtain ⟨-, -, -, same, -, -, -, -, rfl⟩ := upserted
  have found (id : String) := @lookup_upsertRow _ _ before.observations
    (ofUpsert meetingId value now) SpeakerObservationRow.merge _
    SpeakerObservationRow.id (SpeakerObservationRow.id_merge _) id
  refine ⟨fun id other => (found id).trans (if_neg other), _,
    (found value.id).trans (if_pos rfl), ?_⟩
  have isBefore : lookup SpeakerObservationRow.id before.observations
      (ofUpsert meetingId value now).id = before.observation value.id :=
    rfl
  rw [isBefore]
  cases present : before.observation value.id with
  | none => exact ⟨le_rfl, by simp, .inr rfl⟩
  | some stored =>
    obtain ⟨sameMeeting, sameVersion, sameProvider, sameNamespace, sameLabel⟩ :=
      ObservationIdentity.mk.injEq .. ▸ same stored present
    have sameId := (lookup_eq_some present).2
    simp only [Option.elim_some, Option.mem_some_iff, forall_eq', Option.some.injEq]
    by_cases newer : (ofUpsert meetingId value now).revisionNumber >
        stored.revisionNumber
    · have merged : SpeakerObservationRow.merge (.ofUpsert meetingId value now) stored =
          { ofUpsert meetingId value now with
            createdAtMs := stored.createdAtMs } := by
        rw [SpeakerObservationRow.merge, if_pos newer]
        simp only [ofUpsert, ← sameId, ← sameMeeting, ← sameVersion,
          ← sameProvider, ← sameNamespace, ← sameLabel]
      rw [merged]
      exact ⟨le_rfl, newer.le, .inr rfl⟩
    · have merged : SpeakerObservationRow.merge (.ofUpsert meetingId value now) stored =
          stored :=
        if_neg newer
      rw [merged]
      exact ⟨not_lt.mp newer, le_rfl, .inl rfl⟩

theorem HoldsObservations.step {done : List MeetingSpeakerObservationUpsertDto}
    {value : MeetingSpeakerObservationUpsertDto}
    (holds : HoldsObservations meetingId base done before)
    (upserted : upsertSpeakerObservation now meetingId speakers before value = .ok after) :
    HoldsObservations meetingId base (done ++ [value]) after := by
  obtain ⟨others, row, present, isNotOlder, raised, written⟩ := observation_upserted upserted
  constructor
  · intro id
    by_cases same : id = value.id
    · subst same
      rcases written with kept | content
      · rcases holds.content value.id with asBefore | ⟨stored, isStored, submitted, member, isOf⟩
        · exact .inl (present.trans (kept.symm.trans asBefore))
        · obtain rfl := Option.some.inj (kept.symm.trans isStored)
          exact .inr ⟨row, present, submitted, mem_append_left _ member, isOf⟩
      · exact .inr ⟨row, present, value, mem_append_right _ mem_cons_self, rfl, content⟩
    · rw [others id same]
      refine (holds.content id).imp_right ?_
      rintro ⟨stored, isStored, submitted, member, isOf⟩
      exact ⟨stored, isStored, submitted, mem_append_left _ member, isOf⟩
  · refine forall_mem_append.mpr ⟨fun submitted member => ?_, ?_⟩
    · obtain ⟨stored, isStored, older⟩ := holds.notOlder submitted member
      by_cases same : submitted.id = value.id
      · rw [same] at isStored ⊢
        exact ⟨row, present, older.trans (raised stored isStored)⟩
      · exact ⟨stored, (others _ same).trans isStored, older⟩
    · rw [forall_mem_singleton]
      exact ⟨row, present, isNotOlder⟩

variable {request : MeetingRefinementResultApplyRequest}

/-- The transcript of a result is stored: its version, of each segment the newest submission
unless the row is as new, with the live segments it replaces, and its observations. -/
structure TranscriptStored (host : StoreHost) (request : MeetingRefinementResultApplyRequest)
    (before after : TranscriptTables) : Prop where
  version : ∃ row, after.version request.version.id = some row ∧
    row.HasContent request.meetingId request.version (before.version request.version.id)
  segments : ∀ id, HoldsNewest host request.meetingId before id request.segments after
  observations : HoldsObservations request.meetingId before request.speakerObservations after

theorem upsertTranscriptVersion_stored
    (upserted : upsertTranscriptVersion now request.meetingId request.version before = .ok after) :
    ∃ row, after.version request.version.id = some row ∧
      row.HasContent request.meetingId request.version (before.version request.version.id) := by
  simp only [upsertTranscriptVersion, bind_eq_ok_iff, pure_eq_ok_iff, ensure_eq_ok_iff] at upserted
  obtain ⟨-, same, -, -, rfl⟩ := upserted
  refine ⟨_, (lookup_upsertRow (fun _ => rfl) _).trans (if_pos rfl), ?_⟩
  change TranscriptVersionRow.HasContent _ _ _ ((before.version request.version.id).elim _ _)
  cases present : before.version request.version.id with
  | none =>
    simp only [Option.elim_none, TranscriptVersionRow.HasContent, TranscriptVersionRow.ofUpsert,
      Option.bind_none]
    cases request.version.startedAtMs <;> rfl
  | some stored =>
    obtain ⟨meeting, kind, revision⟩ := same stored present
    have sameId := (lookup_eq_some present).2
    simp only [Option.elim_some, TranscriptVersionRow.HasContent, TranscriptVersionRow.merge,
      TranscriptVersionRow.ofUpsert, Option.bind_some, meeting, kind, revision, sameId]

theorem SegmentUpserted.others {value : MeetingTranscriptSegmentUpsertDto}
    {outcome : MeetingUpsertOutcomeKind}
    (upserted : SegmentUpserted host now meetingId speakers value before outcome after) :
    after.versions = before.versions ∧ after.observations = before.observations := by
  cases upserted with
  | kept => exact ⟨rfl, rfl⟩
  | written _ success =>
    rw [(writeSegment_eq_ok success).2]
    exact ⟨rfl, rfl⟩

theorem applyRefinedTranscript_eq_ok {outcomes : List MeetingUpsertOutcomeDto}
    (applied : applyRefinedTranscript host now request speakers before = .ok (after, outcomes)) :
    TranscriptStored host request before after := by
  simp only [applyRefinedTranscript, bind_eq_ok_iff] at applied
  obtain ⟨versioned, upserted, ⟨segmented, _⟩, segments, observed, observations, rfl, -⟩ := applied
  obtain ⟨row, isVersion, content⟩ := upsertTranscriptVersion_stored upserted
  have versionedEq := upsertTranscriptVersion_eq_ok upserted
  have segmentsStored := foldlM_history (fun done (progress : TranscriptTables × _) =>
      (progress.1.versions = versioned.versions ∧
        progress.1.observations = versioned.observations) ∧
          ∀ id, HoldsNewest host request.meetingId before id done progress.1) []
    (by
      rintro done segment - ⟨current, _⟩ ⟨next, _⟩ stepped ⟨⟨versions, observations⟩, holds⟩
      simp only [applyRefinedSegment, bind_eq_ok_iff] at stepped
      obtain ⟨⟨_, _⟩, succeeded, rfl, -⟩ := stepped
      have segmentUpserted := upsertTranscriptSegment_eq_ok succeeded
      obtain ⟨sameVersions, sameObservations⟩ := segmentUpserted.others
      exact ⟨⟨sameVersions.trans versions, sameObservations.trans observations⟩,
        fun id => (holds id).upserted segmentUpserted⟩)
    segments ⟨⟨rfl, rfl⟩, fun id => by rw [versionedEq]; exact ⟨rfl, rfl⟩⟩
  obtain ⟨⟨sameVersions, sameObservations⟩, holds⟩ := segmentsStored
  have start : HoldsObservations request.meetingId before [] segmented := by
    constructor
    · intro id
      left
      rw [TranscriptTables.observation, sameObservations, versionedEq]
      rfl
    · exact forall_mem_nil _
  have observationsStored := foldlM_history (fun done (tables : TranscriptTables) =>
      tables = { segmented with observations := tables.observations } ∧
        HoldsObservations request.meetingId before done tables) []
    (by
      rintro done value - current next succeeded ⟨same, holds⟩
      refine ⟨?_, holds.step succeeded⟩
      rw [upsertSpeakerObservation_eq_ok succeeded, same]) observations ⟨rfl, start⟩
  obtain ⟨same, isObserved⟩ := observationsStored
  constructor
  · rw [same]
    refine ⟨row, ?_, content⟩
    rw [TranscriptTables.version, sameVersions]
    exact isVersion
  · rw [same]
    exact holds
  · exact isObserved

end Transcript

/-- What is checked of a replacement. -/
structure IsReplacement (request : MeetingRefinementResultApplyRequest)
    (value : MeetingClaimVersionUpsertDto) : Prop where
  predecessor : ∃ predecessorId, value.predecessorId = some predecessorId ∧
    predecessorId ∈ request.markStaleClaimVersionIds
  status : value.status = .rechecking
  lifecycle : value.lifecycle = .rechecking
  setCurrent : value.setCurrent

variable {request : MeetingRefinementResultApplyRequest} {now : Int} {meetingId : String}
  {host : StoreHost} {before after : RefinementDb} {outcomes : List MeetingUpsertOutcomeDto}

theorem validateReplacements_eq_ok {seen : List String}
    {replacements : List MeetingClaimVersionUpsertDto}
    (valid : validateReplacements request seen replacements = .ok ⟨⟩) :
    ∀ replacement ∈ replacements, IsReplacement request replacement := by
  induction replacements generalizing seen with
  | nil => exact forall_mem_nil _
  | cons replacement rest ih =>
    unfold validateReplacements at valid
    cases isPredecessor : replacement.predecessorId with
    | none => simp [isPredecessor] at valid
    | some predecessorId =>
      simp only [isPredecessor, bind_eq_ok_iff, invalid_eq_ok_iff, not_or, not_not] at valid
      obtain ⟨-, ⟨marked, -, -, status, lifecycle, setCurrent⟩, others⟩ := valid
      exact forall_mem_cons.mpr
        ⟨⟨⟨predecessorId, isPredecessor, marked⟩, status, lifecycle, setCurrent⟩, ih others⟩

def ClaimVersionRow.marked (version : ClaimVersionRow) : ClaimVersionRow :=
  { version with lifecycle := .stale }

def ClaimRow.marked (now : Int) (claim : ClaimRow) : ClaimRow :=
  { claim with status := .stale, updatedAtMs := now }

/-- The current version of a claim of the meeting is among some versions. -/
def ClaimRow.IsAffected (meetingId : String) (ids : List String) (claim : ClaimRow) : Prop :=
  claim.meetingId = meetingId ∧ ∃ id ∈ ids, claim.currentClaimVersionId = some id

instance (meetingId : String) (ids : List String) (claim : ClaimRow) :
    Decidable (claim.IsAffected meetingId ids) :=
  inferInstanceAs (Decidable (_ ∧ _))

/-- The claim tables after versions of a meeting were marked stale. -/
def ClaimTables.markedStale (now : Int) (meetingId : String) (ids : List String)
    (tables : ClaimTables) : ClaimTables :=
  { tables with
    versions := updateWhere (fun version => version.id ∈ ids) ClaimVersionRow.marked
      tables.versions
    claims := updateWhere (fun claim => claim.IsAffected meetingId ids) (ClaimRow.marked now)
      tables.claims }

theorem markClaimVersionStale_eq_ok {id : String} {before after : ClaimTables}
    (marked : markClaimVersionStale now meetingId before id = .ok after) :
    (∃ version ∈ before.versions, version.id = id) ∧
      after = before.markedStale now meetingId [id] := by
  simp only [markClaimVersionStale, bind_eq_ok_iff, pure_eq_ok_iff, ensure_eq_ok_iff] at marked
  obtain ⟨-, ⟨version, member, isVersion, -⟩, rfl⟩ := marked
  refine ⟨⟨version, member, isVersion⟩, ?_⟩
  simp only [ClaimTables.markedStale, ClaimRow.IsAffected, mem_singleton, exists_eq_left]
  rfl

theorem ClaimTables.markedStale_markedStale (now : Int) (meetingId : String)
    (first second : List String) (tables : ClaimTables) :
    (tables.markedStale now meetingId first).markedStale now meetingId second =
      tables.markedStale now meetingId (first ++ second) := by
  have versions : updateWhere (fun version : ClaimVersionRow => version.id ∈ second)
      ClaimVersionRow.marked (updateWhere (fun version : ClaimVersionRow => version.id ∈ first)
        ClaimVersionRow.marked tables.versions) =
      updateWhere (fun version : ClaimVersionRow => version.id ∈ first ++ second)
        ClaimVersionRow.marked tables.versions := by
    rw [updateWhere_updateWhere _ ClaimVersionRow.marked _ (fun _ => rfl) fun _ => rfl]
    simp
  have claims : updateWhere (fun claim : ClaimRow => claim.IsAffected meetingId second)
      (ClaimRow.marked now) (updateWhere (fun claim => claim.IsAffected meetingId first)
        (ClaimRow.marked now) tables.claims) =
      updateWhere (fun claim : ClaimRow => claim.IsAffected meetingId (first ++ second))
        (ClaimRow.marked now) tables.claims := by
    rw [updateWhere_updateWhere _ (ClaimRow.marked now) _ (fun _ => rfl) fun _ => rfl]
    congr 1
    funext claim
    by_cases ofMeeting : claim.meetingId = meetingId
    · simp [ClaimRow.IsAffected, ofMeeting, or_and_right, exists_or]
    · simp [ClaimRow.IsAffected, ofMeeting]
  simp only [ClaimTables.markedStale, versions, claims]

theorem foldlM_markClaimVersionStale {ids : List String} {before after : ClaimTables}
    (marked : ids.foldlM (markClaimVersionStale now meetingId) before = .ok after) :
    (∀ id ∈ ids, ∃ version ∈ before.versions, version.id = id) ∧
      after = before.markedStale now meetingId ids := by
  have unmarked : before.markedStale now meetingId [] = before := by
    simp [ClaimTables.markedStale, ClaimRow.IsAffected, updateWhere]
  refine foldlM_history (fun done (tables : ClaimTables) =>
    (∀ id ∈ done, ∃ version ∈ before.versions, version.id = id) ∧
      tables = before.markedStale now meetingId done) [] ?_ marked
    ⟨forall_mem_nil _, unmarked.symm⟩
  rintro done id - _ next stepped ⟨present, rfl⟩
  obtain ⟨⟨row, rowMember, isRow⟩, rfl⟩ := markClaimVersionStale_eq_ok stepped
  refine ⟨forall_mem_append.mpr ⟨present, ?_⟩, ClaimTables.markedStale_markedStale ..⟩
  rw [forall_mem_singleton]
  obtain ⟨stored, storedMember, rfl⟩ := mem_updateWhere.mp rowMember
  refine ⟨stored, storedMember, ?_⟩
  split at isRow <;> exact isRow

/-- A replacement writes a version: as its own row, or as its predecessor. -/
def MeetingClaimVersionUpsertDto.Writes (value : MeetingClaimVersionUpsertDto) (id : String) :
    Prop :=
  id = value.claimVersionId ∨ some id = value.predecessorId

instance (value : MeetingClaimVersionUpsertDto) (id : String) : Decidable (value.Writes id) :=
  inferInstanceAs (Decidable (_ ∨ _))

/-- Two versions are the same but for their lifecycles and successors. -/
def ClaimVersionRow.SameContent (first second : ClaimVersionRow) : Prop :=
  first = { second with
    lifecycle := first.lifecycle
    supersededById := first.supersededById }

/-- A version is one of the replacements and is rechecked, or is superseded by one. -/
def ClaimVersionRow.Replaced (done : List MeetingClaimVersionUpsertDto)
    (version : ClaimVersionRow) : Prop :=
  (version.lifecycle = .rechecking ∧ ∃ value ∈ done, version.id = value.claimVersionId) ∨
    version.lifecycle = .superseded ∧
      ∃ value ∈ done, version.supersededById = some value.claimVersionId

/-- A version has the content it had, or that of a replacement whose segments are linked. -/
def ClaimVersionRow.ContentFrom (host : StoreHost) (before : ClaimTables)
    (done : List MeetingClaimVersionUpsertDto) (links : List ClaimVersionSegmentRow)
    (version : ClaimVersionRow) : Prop :=
  (∃ stored, lookup ClaimVersionRow.id before.versions version.id = some stored ∧
      version.SameContent stored) ∨
    ∃ value ∈ done, version.SameContent (.ofUpsert host value version.createdAtMs) ∧
      ∀ place segmentId, value.segmentIds[place]? = some segmentId →
        ⟨value.claimVersionId, segmentId, place⟩ ∈ links

/-- The key of a claim is the last one that is submitted, or its own. -/
def ClaimRow.keyAfter (done : List MeetingClaimVersionUpsertDto) (claim : ClaimRow) :
    Option String :=
  (done.filter fun value => value.claimId = claim.id).foldl
    (fun key value => value.duplicateKey <|> key) claim.duplicateKey

/-- A claim is rechecked with its last replacement, or stale when its version was marked. -/
def ClaimRow.afterResult (now : Int) (request : MeetingRefinementResultApplyRequest)
    (done : List MeetingClaimVersionUpsertDto) (claim : ClaimRow) : ClaimRow :=
  match (done.filter fun value => value.claimId = claim.id).getLast? with
  | some value =>
    { claim with
      duplicateKey := claim.keyAfter done
      status := .rechecking
      currentClaimVersionId := some value.claimVersionId
      updatedAtMs := now }
  | none =>
    if claim.IsAffected request.meetingId request.markStaleClaimVersionIds then claim.marked now
    else claim

/-- The claims of a result are stored. -/
structure ClaimsStored (host : StoreHost) (now : Int)
    (request : MeetingRefinementResultApplyRequest) (before : ClaimTables)
    (done : List MeetingClaimVersionUpsertDto) (tables : ClaimTables) : Prop where
  claims : tables.claims = before.claims.map (ClaimRow.afterResult now request done)
  marked : ∀ id ∈ request.markStaleClaimVersionIds, ∃ version ∈ tables.versions, version.id = id
  retired : ∀ version ∈ tables.versions, version.id ∈ request.markStaleClaimVersionIds →
    version.lifecycle = .stale ∨ version.Replaced done
  written : ∀ value ∈ done, ∀ version ∈ tables.versions, value.Writes version.id →
    version.Replaced done
  contents : ∀ id, ∀ version ∈ lookup ClaimVersionRow.id tables.versions id,
    version.ContentFrom host before done tables.versionSegments
  replacements : ∀ value ∈ done, ∃ version ∈ lookup ClaimVersionRow.id tables.versions
      value.claimVersionId,
    version.claimId = value.claimId ∧ version.versionNumber = value.versionNumber.toNat ∧
      version.contentHash = host.blake3 value.semantic.tokens

section Stored

variable {host : StoreHost} {now : Int} {meetingId : String} {db : MeetingsDb}
  {value : MeetingClaimVersionUpsertDto} {tables before : ClaimTables}
  {done : List MeetingClaimVersionUpsertDto} {links : List ClaimVersionSegmentRow}
  {version : ClaimVersionRow}

theorem ClaimVersionRow.SameContent.trans {other last : ClaimVersionRow}
    (first : version.SameContent other) (second : other.SameContent last) :
    version.SameContent last := by
  unfold SameContent at first second ⊢
  rw [first, second]

theorem ClaimVersionRow.SameContent.keys {other : ClaimVersionRow}
    (same : version.SameContent other) :
    version.id = other.id ∧ version.claimId = other.claimId ∧
      version.versionNumber = other.versionNumber ∧ version.contentHash = other.contentHash ∧
        version.createdAtMs = other.createdAtMs := by
  rw [same]
  exact ⟨rfl, rfl, rfl, rfl, rfl⟩

theorem ClaimVersionRow.sameContent_superseding (ids : List String) (successorId : String) :
    (version.superseding ids successorId).SameContent version := by
  unfold superseding
  split <;> rfl

theorem ClaimVersionRow.Replaced.mono {more : List MeetingClaimVersionUpsertDto}
    (replaced : version.Replaced done) (subset : done ⊆ more) : version.Replaced more :=
  replaced.imp (fun ⟨lifecycle, value, member, same⟩ => ⟨lifecycle, value, subset member, same⟩)
    fun ⟨lifecycle, value, member, same⟩ => ⟨lifecycle, value, subset member, same⟩

theorem ClaimVersionRow.ContentFrom.mono {later : ClaimVersionRow}
    {more : List MeetingClaimVersionUpsertDto} {moreLinks : List ClaimVersionSegmentRow}
    (content : version.ContentFrom host before done links) (same : later.SameContent version)
    (subset : done ⊆ more) (subsetLinks : links ⊆ moreLinks) :
    later.ContentFrom host before more moreLinks := by
  obtain ⟨sameId, -, -, -, sameTime⟩ := same.keys
  rcases content with ⟨stored, found, isStored⟩ | ⟨value, member, submitted, linked⟩
  · exact .inl ⟨stored, by rw [sameId, found], same.trans isStored⟩
  · refine .inr ⟨value, subset member, ?_, fun place segmentId isSegment =>
      subsetLinks (linked place segmentId isSegment)⟩
    rw [sameTime]
    exact same.trans submitted

/-- The versions after a replacement was stored and made current. -/
def versionsReplaced (host : StoreHost) (now : Int) (value : MeetingClaimVersionUpsertDto)
    (ids : List String) (versions : List ClaimVersionRow) : List ClaimVersionRow :=
  (versionsWithUpsert host now value versions).map
    (ClaimVersionRow.superseding ids value.claimVersionId)

variable {ids : List String} {versions : List ClaimVersionRow} {id : String}

/-- A stored version keeps its content, and a replacement that is not stored is inserted. -/
theorem lookup_versionsReplaced :
    (∀ stored, lookup ClaimVersionRow.id versions id = some stored →
      ∃ later, lookup ClaimVersionRow.id (versionsReplaced host now value ids versions) id =
        some later ∧ later.SameContent stored) ∧
      (lookup ClaimVersionRow.id versions id = none →
        if id = value.claimVersionId then
          ∃ later, lookup ClaimVersionRow.id (versionsReplaced host now value ids versions) id =
            some later ∧ later.SameContent (.ofUpsert host value now)
        else lookup ClaimVersionRow.id (versionsReplaced host now value ids versions) id =
          none) := by
  unfold versionsReplaced versionsWithUpsert
  rw [lookup_map fun _ => ClaimVersionRow.id_superseding]
  cases found : lookup ClaimVersionRow.id versions value.claimVersionId with
  | some own =>
    have keys (row : ClaimVersionRow) : { row with
        lifecycle := value.lifecycle
        supersededById := value.supersededById <|> row.supersededById }.id = row.id :=
      rfl
    dsimp only
    rw [lookup_updateWhere keys]
    constructor
    · intro stored isStored
      rw [isStored]
      refine ⟨_, rfl, (ClaimVersionRow.sameContent_superseding _ _).trans ?_⟩
      dsimp only
      split <;> rfl
    · intro isNone
      rw [isNone, if_neg]
      · rfl
      · rintro rfl
        cases found.symm.trans isNone
  | none =>
    have absent := lookup_eq_none_iff.mp found
    dsimp only
    rw [@lookup_snoc _ _ _ _ _ (ClaimVersionRow.ofUpsert host value now) absent]
    constructor
    · intro stored isStored
      rw [if_neg, isStored]
      · exact ⟨_, rfl, ClaimVersionRow.sameContent_superseding _ _⟩
      · rintro rfl
        cases found.symm.trans isStored
    · intro isNone
      by_cases own : id = value.claimVersionId
      · rw [if_pos own, if_pos (show id = (ClaimVersionRow.ofUpsert host value now).id from own)]
        exact ⟨_, rfl, ClaimVersionRow.sameContent_superseding _ _⟩
      · rw [if_neg own, isNone,
          if_neg (show ¬id = (ClaimVersionRow.ofUpsert host value now).id from own)]
        rfl

/-- A version is written by the replacement, or is one from before that it does not write. -/
theorem mem_versionsReplaced (recheck : value.lifecycle = .rechecking)
    (predecessor : value.predecessorId.toList ⊆ ids)
    (member : version ∈ versionsReplaced host now value ids versions) :
    version.Replaced [value] ∨ version ∈ versions ∧ ¬value.Writes version.id := by
  obtain ⟨row, rowMember, rfl⟩ := mem_map.mp member
  unfold ClaimVersionRow.superseding
  by_cases superseded : row.id ∈ ids
  · rw [if_pos superseded]
    exact .inl (.inr ⟨rfl, value, mem_cons_self, rfl⟩)
  · rw [if_neg superseded]
    have notPredecessor : some row.id ≠ value.predecessorId := fun isPredecessor =>
      superseded (predecessor (Option.mem_toList.mpr isPredecessor.symm))
    unfold versionsWithUpsert at rowMember
    split at rowMember
    · obtain ⟨stored, storedMember, rfl⟩ := mem_updateWhere.mp rowMember
      by_cases own : stored.id = value.claimVersionId
      · rw [if_pos (decide_eq_true own)]
        exact .inl (.inl ⟨recheck, value, mem_cons_self, own⟩)
      · simp only [own, decide_false, Bool.false_eq_true, if_false] at notPredecessor ⊢
        exact .inr ⟨storedMember, fun writes => writes.elim own notPredecessor⟩
    · next notFound =>
      rcases mem_append.mp rowMember with stored | isNew
      · have other : row.id ≠ value.claimVersionId := by
          intro own
          exact absurd (own ▸ mem_map_of_mem stored) (lookup_eq_none_iff.mp notFound)
        exact .inr ⟨stored, fun writes => writes.elim other notPredecessor⟩
      · rw [mem_singleton.mp isNew]
        exact .inl (.inl ⟨recheck, value, mem_cons_self, rfl⟩)

variable {request : MeetingRefinementResultApplyRequest} {after : ClaimTables}

/-- The claim of a replacement is stored, as its predecessor is one of it. -/
theorem exists_claim_of_admits (replacement : IsReplacement request value)
    (admits : Admits host meetingId db value tables) :
    ∃ claim, lookup ClaimRow.id tables.claims value.claimId = some claim := by
  obtain ⟨predecessorId, isPredecessor, -⟩ := replacement.predecessor
  have related := admits.references.related predecessorId (by simp [isPredecessor])
  unfold ensureClaimVersionRelationship at related
  cases found : lookup ClaimVersionRow.id tables.versions predecessorId with
  | none => simp [found] at related
  | some version =>
    cases owner : lookup ClaimRow.id tables.claims version.claimId with
    | none => simp [found, owner] at related
    | some claim =>
      simp only [found, owner, ensure_eq_ok_iff] at related
      exact ⟨claim, related.1 ▸ owner⟩

theorem ClaimRow.afterResult_keys (claim : ClaimRow) :
    (claim.afterResult now request done).id = claim.id ∧
      (claim.afterResult now request done).duplicateKey = claim.keyAfter done := by
  unfold afterResult
  split
  · exact ⟨rfl, rfl⟩
  · next none =>
    rw [keyAfter, getLast?_eq_none_iff.mp none]
    split <;> exact ⟨rfl, rfl⟩

/-- A claim after one more replacement. -/
theorem ClaimRow.afterResult_snoc (replacement : IsReplacement request value) (claim : ClaimRow) :
    claim.afterResult now request (done ++ [value]) =
      if claim.id = value.claimId then
        ((claim.afterResult now request done).withUpsert now value).withCurrent now value
      else claim.afterResult now request done := by
  by_cases isClaim : claim.id = value.claimId
  · have key := (@ClaimRow.afterResult_keys now done request claim).2
    have fields : claim.afterResult now request done =
        { claim with
          duplicateKey := (claim.afterResult now request done).duplicateKey
          status := (claim.afterResult now request done).status
          currentClaimVersionId := (claim.afterResult now request done).currentClaimVersionId
          updatedAtMs := (claim.afterResult now request done).updatedAtMs } := by
      unfold afterResult
      split
      · rfl
      · split <;> rfl
    rw [if_pos isClaim, fields, withUpsert, withCurrent, key]
    simp [afterResult, keyAfter, isClaim, replacement.status]
  · rw [if_neg isClaim]
    simp [afterResult, keyAfter, Ne.symm isClaim]

theorem ClaimsStored.step (stored : ClaimsStored host now request before done tables)
    (replacement : IsReplacement request value)
    (applied : applyClaimVersion host now request.meetingId db tables value = .ok after) :
    ClaimsStored host now request before (done ++ [value]) after := by
  obtain ⟨admits, afterEq⟩ := applyClaimVersion_eq_ok_iff.mp applied
  obtain ⟨claim, claimFound⟩ := exists_claim_of_admits replacement admits
  rw [if_pos replacement.setCurrent, setCurrentVersion_eq] at afterEq
  generalize superseded : supersededIds value _ = ids at afterEq
  have predecessor : value.predecessorId.toList ⊆ ids := by
    rw [← superseded]
    exact subset_append_right _ _
  have earlier : done ⊆ done ++ [value] := subset_append_left _ _
  have own : [value] ⊆ done ++ [value] := subset_append_right _ _
  have versions : after.versions = versionsReplaced host now value ids tables.versions := by
    rw [← afterEq]
    rfl
  have links : after.versionSegments =
      segmentsWithUpsert value tables.versions tables.versionSegments := by
    rw [← afterEq]
    rfl
  have kept {row : ClaimVersionRow} (member : row ∈ after.versions) :=
    mem_versionsReplaced replacement.lifecycle predecessor (versions ▸ member)
  constructor
  case claims =>
    have claims : after.claims = updateWhere (fun claim => claim.id = value.claimId)
        (ClaimRow.withCurrent now value)
        (claimsWithUpsert now request.meetingId value tables.claims) := by
      rw [← afterEq]
      rfl
    unfold claimsWithUpsert at claims
    rw [claimFound, stored.claims, updateWhere, updateWhere, map_map, map_map] at claims
    rw [claims]
    refine map_congr_left fun row _ => ?_
    rw [ClaimRow.afterResult_snoc replacement]
    obtain ⟨sameId, -⟩ := @ClaimRow.afterResult_keys now done request row
    by_cases isClaim : row.id = value.claimId
    · simp [sameId, isClaim, ClaimRow.withUpsert]
    · simp [sameId, isClaim]
  case marked =>
    intro id isMarked
    obtain ⟨row, member, rfl⟩ := stored.marked id isMarked
    obtain ⟨first, found⟩ := @exists_lookup_of_mem _ _ _ ClaimVersionRow.id _ _ member
    obtain ⟨later, isLater, -⟩ := lookup_versionsReplaced.1 first found
    rw [versions]
    exact ⟨later, lookup_eq_some isLater⟩
  case retired =>
    intro version member isMarked
    rcases kept member with replaced | ⟨old, -⟩
    · exact .inr (replaced.mono own)
    · exact (stored.retired version old isMarked).imp_right fun replaced => replaced.mono earlier
  case written =>
    refine forall_mem_append.mpr ⟨fun other isDone version member writes => ?_, ?_⟩
    · rcases kept member with replaced | ⟨old, -⟩
      · exact replaced.mono own
      · exact (stored.written other isDone version old writes).mono earlier
    · rw [forall_mem_singleton]
      intro version member writes
      rcases kept member with replaced | ⟨-, unwritten⟩
      · exact replaced.mono own
      · exact absurd writes unwritten
  case contents =>
    intro id later found
    rw [versions] at found
    have linksKept : tables.versionSegments ⊆ after.versionSegments := by
      rw [links, segmentsWithUpsert]
      split
      · exact Subset.refl _
      · exact subset_append_left _ _
    cases before : lookup ClaimVersionRow.id tables.versions id with
    | some row =>
      obtain ⟨_, isLater, same⟩ := lookup_versionsReplaced.1 row before
      cases isLater.symm.trans found
      exact (stored.contents id row before).mono same earlier linksKept
    | none =>
      have inserted := (@lookup_versionsReplaced host now value ids _ _).2 before
      split at inserted
      · next isOwn =>
        subst isOwn
        obtain ⟨_, isLater, same⟩ := inserted
        cases isLater.symm.trans found
        refine .inr ⟨value, mem_append_right _ mem_cons_self, ?_, ?_⟩
        · rw [same.keys.2.2.2.2]
          exact same
        · intro place segmentId isSegment
          rw [links, segmentsWithUpsert, before]
          refine mem_append_right _ (mem_mapIdx.mpr ?_)
          obtain ⟨bound, isElement⟩ := List.getElem?_eq_some_iff.mp isSegment
          exact ⟨place, bound, by rw [isElement, Nat.zero_add]⟩
      · cases inserted.symm.trans found
  case replacements =>
    rw [versions]
    refine forall_mem_append.mpr ⟨fun other isDone => ?_, ?_⟩
    · obtain ⟨row, found, ofClaim, number, hash⟩ := stored.replacements other isDone
      obtain ⟨later, isLater, same⟩ := lookup_versionsReplaced.1 row found
      obtain ⟨-, sameClaim, sameNumber, sameHash, -⟩ := same.keys
      exact ⟨later, isLater, sameClaim.trans ofClaim, sameNumber.trans number,
        sameHash.trans hash⟩
    · rw [forall_mem_singleton]
      cases found : lookup ClaimVersionRow.id tables.versions value.claimVersionId with
      | some row =>
        obtain ⟨ofClaim, number, hash⟩ := admits.version.same row found
        obtain ⟨later, isLater, same⟩ := lookup_versionsReplaced.1 row found
        obtain ⟨-, sameClaim, sameNumber, sameHash, -⟩ := same.keys
        exact ⟨later, isLater, sameClaim.trans ofClaim, sameNumber.trans number,
          sameHash.trans hash⟩
      | none =>
        have inserted := (@lookup_versionsReplaced host now value ids _ _).2 found
        rw [if_pos rfl] at inserted
        obtain ⟨later, isLater, same⟩ := inserted
        obtain ⟨-, sameClaim, sameNumber, sameHash, -⟩ := same.keys
        exact ⟨later, isLater, sameClaim, sameNumber, sameHash⟩

theorem applyRefinedClaims_eq_ok (replacements : ∀ replacement ∈ request.replacementClaimVersions,
      IsReplacement request replacement)
    (applied : applyRefinedClaims host now request db = .ok after) :
    ClaimsStored host now request db.claims request.replacementClaimVersions after := by
  rw [applyRefinedClaims, bind_eq_ok_iff] at applied
  obtain ⟨marked, marks, applied⟩ := applied
  obtain ⟨present, rfl⟩ := foldlM_markClaimVersionStale marks
  refine foldlM_history (ClaimsStored host now request db.claims) [] ?_ applied ?_
  · intro done value listed before next stepped stored
    exact stored.step (replacements value listed) stepped
  · constructor
    · refine map_congr_left fun claim _ => ?_
      simp [ClaimRow.afterResult]
    · intro id isMarked
      obtain ⟨version, member, isVersion⟩ := present id isMarked
      exact ⟨version.marked, mem_updateWhere.mpr ⟨version, member, by simp [isVersion, isMarked]⟩,
        isVersion⟩
    · intro version member isMarked
      obtain ⟨row, -, rfl⟩ := mem_updateWhere.mp member
      by_cases rowMarked : row.id ∈ request.markStaleClaimVersionIds
      · simp [rowMarked, ClaimVersionRow.marked]
      · simp [rowMarked] at isMarked
    · exact forall_mem_nil _
    · intro id version found
      have keys (row : ClaimVersionRow) : row.marked.id = row.id := rfl
      rw [ClaimTables.markedStale, lookup_updateWhere keys] at found
      obtain ⟨stored, isStored, rfl⟩ := Option.map_eq_some_iff.mp found
      have same : (if decide (stored.id ∈ request.markStaleClaimVersionIds) = true then
          stored.marked else stored).SameContent stored := by
        split <;> rfl
      left
      refine ⟨stored, ?_, same⟩
      rw [same.keys.1, (lookup_eq_some isStored).2]
      exact isStored
    · exact forall_mem_nil _

end Stored

/-- Every part of a result is stored. -/
structure AppliedInFull (host : StoreHost) (now : Int)
    (request : MeetingRefinementResultApplyRequest) (before after : RefinementDb) : Prop where
  transcript : TranscriptStored host request before.transcript after.transcript
  claims : ClaimsStored host now request before.claims request.replacementClaimVersions
    after.claims
  job : ∃ job ∈ before.refinementJobs, job.id = request.refinementJobId ∧
    job.meetingId = request.meetingId ∧
      { job with
        status := .complete
        completedAtMs := job.completedAtMs <|> some now
        error := none
        updatedAtMs := now } ∈ after.refinementJobs
  canonical : ∀ meeting ∈ after.meetings, meeting.id = request.meetingId →
    meeting.deletedAtMs = none →
      meeting.canonicalTranscriptVersionId = some request.version.id
  progress : ∀ row ∈ after.progress, row.meetingId = request.meetingId →
    row.refinementStatus = .complete

theorem applyRefinementResultChanges_eq_ok
    (applied : applyRefinementResultChanges host now request before = .ok (outcomes, after)) :
    (∀ replacement ∈ request.replacementClaimVersions, IsReplacement request replacement) ∧
      ∃ transcript claims,
        applyRefinedTranscript host now request before.speakers before.transcript =
          .ok (transcript, outcomes) ∧
        applyRefinedClaims host now request { before.toMeetingsDb with transcript } = .ok claims ∧
        getMeeting before.toMeetingsDb request.meetingId = .ok ⟨⟩ ∧
        before.ensureRefinementJob request.meetingId request.refinementJobId = .ok ⟨⟩ ∧
        after = ({ before with
          transcript
          claims
          refinementJobs := completeRefinementJob now request.refinementJobId
            before.refinementJobs } : RefinementDb).promote request.meetingId request.version.id
              now := by
  simp only [applyRefinementResultChanges, validateRefinementResult, bind_eq_ok_iff] at applied
  obtain ⟨_, ⟨_, -, _, -, _, -, _, -, _, -, _, -, valid⟩, _, meeting, _, job, ⟨transcript, _⟩,
    transcribed, claims, claimed, rfl, rfl⟩ := applied
  exact ⟨validateReplacements_eq_ok valid, transcript, claims, transcribed, claimed, meeting, job,
    rfl⟩

/-- A result that succeeds is applied in full. -/
theorem appliedInFull_of_ok
    (applied : applyRefinementResultChanges host now request before = .ok (outcomes, after)) :
    AppliedInFull host now request before after := by
  obtain ⟨replacements, transcript, claims, transcribed, claimed, meeting, job, rfl⟩ :=
    applyRefinementResultChanges_eq_ok applied
  rw [getMeeting, ensure_eq_ok_iff] at meeting
  rw [RefinementDb.ensureRefinementJob, ensure_eq_ok_iff] at job
  constructor
  case transcript => exact applyRefinedTranscript_eq_ok transcribed
  case claims =>
    have stored := applyRefinedClaims_eq_ok replacements claimed
    exact stored
  case job =>
    obtain ⟨row, member, isJob, ofMeeting⟩ := job
    exact ⟨row, member, isJob, ofMeeting,
      mem_updateWhere.mpr ⟨row, member, (if_pos (by simpa using isJob)).symm⟩⟩
  case canonical =>
    intro row member isMeeting notDeleted
    obtain ⟨stored, -, rfl⟩ := mem_updateWhere.mp member
    by_cases applies : stored.id = request.meetingId ∧ stored.deletedAtMs = none
    · simp [applies]
    · simp only [applies] at isMeeting notDeleted
      exact absurd ⟨isMeeting, notDeleted⟩ applies
  case progress =>
    intro row member ofMeeting
    obtain ⟨stored, -, rfl⟩ := mem_updateWhere.mp member
    by_cases applies : stored.meetingId = request.meetingId
    · simp [applies, meeting]
    · simp [applies] at ofMeeting

end Obelus.Meetings
