import Obelus.Meetings.AudioAssets

/-!
# Deleting meetings

`delete_meeting` marks a meeting as deleted and lists its audio assets in a
cleanup job, in one transaction.  The requests that change a meeting look at
the deletion first and open their transaction later.  Calls of both kinds are a
machine whose steps are the check and the transaction of a call; transactions
exclude each other.  A deletion is final when no checked request waits for its
transaction while the meeting is deleted, since those that come later are refused.
-/

namespace Obelus.Meetings

open Obelus.Data List
open Obelus.Transition
open Validation

variable {κ : Type}

def MarkedDeleted (meetingId : String) (db : AudioDb κ) : Prop :=
  (∃ row ∈ db.meetings, row.id = meetingId) ∧
    ∀ row ∈ db.meetings, row.id = meetingId → row.deletedAtMs.isSome

instance (meetingId : String) (db : AudioDb κ) : Decidable (MarkedDeleted meetingId db) :=
  inferInstanceAs (Decidable ((∃ row ∈ db.meetings, _) ∧ ∀ row ∈ db.meetings, _ → _))

def checkDelete (host : StoreHost) (meetingId : String) (meetings : List MeetingRecord) :
    Checked := do
  uuid host meetingId
  ensure (∃ row ∈ meetings, row.id = meetingId) .notFound

def markDeleted (meetingId : String) (now : Int) (db : AudioDb κ) : AudioDb κ :=
  { db with
    meetings := updateWhere (fun row => row.id = meetingId)
      (fun row => { row with deletedAtMs := some (row.deletedAtMs.getD now), updatedAtMs := now })
      db.meetings }

/-- `INSERT INTO cleanup_jobs … ON CONFLICT(meeting_id) DO NOTHING`. -/
def insertCleanupJob (meetingId jobId : String) (now : Int) (db : AudioDb κ) :
    Except MeetingStoreError (AudioDb κ) :=
  if ∃ job ∈ db.cleanupJobs, job.meetingId = meetingId then .ok db
  else do
    ensure ((∀ job ∈ db.cleanupJobs, job.id ≠ jobId) ∧ ∃ row ∈ db.meetings, row.id = meetingId)
      .database
    return { db with
      cleanupJobs := db.cleanupJobs ++
        [{ id := jobId, meetingId, localStatus := .pending, gatewayStatus := .pending
           providerStatus := .pending, attemptCount := 0, createdAtMs := now
           updatedAtMs := now }] }

/-- `INSERT OR IGNORE INTO cleanup_job_assets`. -/
def listAsset (jobId : String) (db : AudioDb κ) (asset : AudioAssetRow) :
    Except MeetingStoreError (AudioDb κ) := do
  controlledRelativePath asset.relativePath
  if ∃ entry ∈ db.cleanupJobAssets, entry.cleanupJobId = jobId ∧ entry.audioAssetId = asset.id then
    return db
  else
    return { db with
      cleanupJobAssets := db.cleanupJobAssets ++
        [{ cleanupJobId := jobId, audioAssetId := asset.id, relativePath := asset.relativePath }] }

def deleteMeeting (meetingId newJobId : String) (now : Int) (db : AudioDb κ) :
    Except MeetingStoreError (AudioDb κ) := do
  let existingId := (db.cleanupJobs.find? fun job => job.meetingId = meetingId).map CleanupJobRow.id
  let jobId := existingId.getD newJobId
  let db ← insertCleanupJob meetingId jobId now (markDeleted meetingId now db)
  (db.audioAssets.filter fun asset => asset.meetingId = meetingId).foldlM (listAsset jobId) db

/-- An `apply_*` request other than one for audio: its checks, and its
transaction, which may read everything and changes the other tables and the
columns of its meeting. -/
structure OtherApply (κ : Type) where
  validate : Checked
  change : Int → AudioDb κ → Except MeetingStoreError (OtherTables κ × (MeetingDto → MeetingDto))

def applyOther (meetingId : String) (request : OtherApply κ) (now : Int) (db : AudioDb κ) :
    Except MeetingStoreError (AudioDb κ) := do
  let (others, update) ← request.change now db
  return { db with
    others
    meetings := updateWhere (fun row => row.id = meetingId)
      (fun row => { row with toMeetingDto := { update row.toMeetingDto with id := row.id } })
      db.meetings }

inductive MeetingCall (κ : Type)
  | applyAudio (request : MeetingAudioApplyRequest)
  | applyOther (meetingId : String) (request : OtherApply κ)
  | deleteMeeting (meetingId : String)

namespace MeetingCall

def meetingId : MeetingCall κ → String
  | .applyAudio request => request.meetingId
  | .applyOther meetingId _ => meetingId
  | .deleteMeeting meetingId => meetingId

def isApply : MeetingCall κ → Bool
  | .deleteMeeting _ => false
  | _ => true

/-- Everything a call does before its transaction. -/
def check (host : StoreHost) (meetings : List MeetingRecord) : MeetingCall κ → Checked
  | .applyAudio request => checkAudio host request meetings
  | .applyOther meetingId request => do
    request.validate
    let _ ← readMeeting meetings meetingId
  | .deleteMeeting meetingId => checkDelete host meetingId meetings

def transact (now : Int) (newJobId : String) (db : AudioDb κ) :
    MeetingCall κ → Except MeetingStoreError (AudioDb κ)
  | .applyAudio request => Meetings.applyAudio request now db
  | .applyOther meetingId request => Meetings.applyOther meetingId request now db
  | .deleteMeeting meetingId => Meetings.deleteMeeting meetingId newJobId now db

end MeetingCall

/-- The tables, and the calls between their check and their transaction. -/
structure DeletionState (κ : Type) where
  db : AudioDb κ
  checked : List (MeetingCall κ)

inductive DeletionAction (κ : Type)
  | check (call : MeetingCall κ)
  | transact (place : Nat) (now : Int) (newJobId : String)

/-- A step of a call, with the answer that ends it.  A failed transaction changes nothing. -/
def deletionStep (host : StoreHost) : Machine (DeletionState κ) (DeletionAction κ) Checked :=
  fun state action =>
    match action with
    | .check call =>
      match call.check host state.db.meetings with
      | .ok _ => some ({ state with checked := state.checked ++ [call] }, [])
      | .error error => some (state, [.error error])
    | .transact place now newJobId =>
      match state.checked[place]? with
      | none => none
      | some call =>
        let checked := state.checked.eraseIdx place
        match call.transact now newJobId state.db with
        | .ok db => some ({ db, checked }, [.ok ⟨⟩])
        | .error error => some ({ state with checked }, [.error error])

/-- What the transaction of an `apply_*` request leaves of a deletion. -/
structure KeepsCleanup (before after : AudioDb κ) : Prop where
  cleanupJobs : after.cleanupJobs = before.cleanupJobs
  cleanupJobAssets : after.cleanupJobAssets = before.cleanupJobAssets
  marked : ∀ meetingId, MarkedDeleted meetingId after ↔ MarkedDeleted meetingId before
  distinct : (before.audioAssets.map AudioAssetRow.id).Nodup →
    (after.audioAssets.map AudioAssetRow.id).Nodup

namespace KeepsCleanup

theorem refl (db : AudioDb κ) : KeepsCleanup db db :=
  ⟨rfl, rfl, fun _ => Iff.rfl, id⟩

theorem trans {first second third : AudioDb κ} (before : KeepsCleanup first second)
    (after : KeepsCleanup second third) : KeepsCleanup first third where
  cleanupJobs := after.cleanupJobs.trans before.cleanupJobs
  cleanupJobAssets := after.cleanupJobAssets.trans before.cleanupJobAssets
  marked meetingId := (after.marked meetingId).trans (before.marked meetingId)
  distinct := after.distinct ∘ before.distinct

end KeepsCleanup

/-- Updates of meetings that keep the identifier and the deletion keep the
deleted meetings. -/
theorem markedDeleted_updateWhere (db : AudioDb κ) {meetings : List MeetingRecord}
    {condition : MeetingRecord → Bool} {change : MeetingRecord → MeetingRecord}
    (updated : meetings = updateWhere condition change db.meetings)
    (sameId : ∀ row, (change row).id = row.id)
    (sameDeletion : ∀ row, (change row).deletedAtMs = row.deletedAtMs) (meetingId : String) :
    MarkedDeleted meetingId { db with meetings } ↔ MarkedDeleted meetingId db := by
  subst updated
  have sameRow : ∀ row, (if condition row then change row else row).id = row.id ∧
      (if condition row then change row else row).deletedAtMs = row.deletedAtMs := by
    intro row
    split
    · exact ⟨sameId row, sameDeletion row⟩
    · exact ⟨rfl, rfl⟩
  simp only [MarkedDeleted, mem_updateWhere]
  constructor
  · rintro ⟨⟨_, ⟨row, member, rfl⟩, same⟩, deleted⟩
    refine ⟨⟨row, member, (sameRow row).1 ▸ same⟩, fun other isOther ofMeeting => ?_⟩
    rw [← (sameRow other).2]
    exact deleted _ ⟨other, isOther, rfl⟩ ((sameRow other).1.trans ofMeeting)
  · rintro ⟨⟨row, member, same⟩, deleted⟩
    refine ⟨⟨_, ⟨row, member, rfl⟩, (sameRow row).1.trans same⟩, ?_⟩
    rintro _ ⟨other, isOther, rfl⟩ ofMeeting
    rw [(sameRow other).2]
    exact deleted other isOther ((sameRow other).1 ▸ ofMeeting)

variable {meetingId jobId newJobId : String} {now : Int} {before after : AudioDb κ}

theorem upsertAsset_keepsCleanup {asset : MeetingAudioAssetUpsertDto}
    (upserted : upsertAsset meetingId now before asset = .ok after) :
    KeepsCleanup before after := by
  simp only [upsertAsset, bind_eq_ok_iff, pure_eq_ok_iff] at upserted
  obtain ⟨_, -, _, -, _, -, _, -, rfl⟩ := upserted
  exact ⟨rfl, rfl, fun _ => Iff.rfl, nodup_map_upsertRow fun _ => rfl⟩

theorem applyAudio_keepsCleanup {request : MeetingAudioApplyRequest}
    (applied : applyAudio request now before = .ok after) : KeepsCleanup before after := by
  simp only [applyAudio, bind_eq_ok_iff, pure_eq_ok_iff] at applied
  obtain ⟨withAssets, assets, withManifest, manifest, withInputs, inputs, rfl⟩ := applied
  have first : KeepsCleanup before withAssets :=
    foldlM_relation KeepsCleanup.refl (fun _ _ _ => .trans)
      (fun _ _ _ _ upserted => upsertAsset_keepsCleanup upserted) assets
  have second : KeepsCleanup withAssets withManifest := by
    cases replaced : request.replaceRefinementManifestForJobId with
    | none =>
      rw [replaced] at manifest
      cases manifest
      exact .refl _
    | some jobId =>
      rw [replaced, replaceManifest, bind_eq_ok_iff] at manifest
      obtain ⟨_, -, done⟩ := manifest
      cases done
      exact ⟨rfl, rfl, fun _ => Iff.rfl, id⟩
  have third : KeepsCleanup withManifest withInputs := by
    apply foldlM_relation KeepsCleanup.refl (fun _ _ _ => .trans) _ inputs
    intro input _ _ _ upserted
    simp only [upsertInput, bind_eq_ok_iff, pure_eq_ok_iff] at upserted
    obtain ⟨_, -, _, -, rfl⟩ := upserted
    exact ⟨rfl, rfl, fun _ => Iff.rfl, id⟩
  have last : KeepsCleanup withInputs (touchMeeting request.meetingId now withInputs) :=
    ⟨rfl, rfl, markedDeleted_updateWhere _ rfl (fun _ => rfl) fun _ => rfl, id⟩
  exact ((first.trans second).trans third).trans last

theorem applyOther_keepsCleanup {request : OtherApply κ}
    (applied : applyOther meetingId request now before = .ok after) :
    KeepsCleanup before after := by
  simp only [applyOther, bind_eq_ok_iff] at applied
  obtain ⟨⟨others, update⟩, -, done⟩ := applied
  cases done
  refine ⟨rfl, rfl, ?_, id⟩
  exact markedDeleted_updateWhere { before with others } rfl (fun _ => rfl) fun _ => rfl

/-- What listing the assets of a meeting does to the entries of cleanup jobs. -/
structure ListsAssets (jobId : String) (assets : List AudioAssetRow)
    (before after : AudioDb κ) : Prop where
  meetings : after.meetings = before.meetings
  audioAssets : after.audioAssets = before.audioAssets
  cleanupJobs : after.cleanupJobs = before.cleanupJobs
  kept : ∀ entry ∈ before.cleanupJobAssets, entry ∈ after.cleanupJobAssets
  added : ∀ entry ∈ after.cleanupJobAssets, entry ∈ before.cleanupJobAssets ∨
    ∃ asset ∈ assets, entry = ⟨jobId, asset.id, asset.relativePath⟩
  listed : ∀ asset ∈ assets, ∃ entry ∈ after.cleanupJobAssets,
    entry.cleanupJobId = jobId ∧ entry.audioAssetId = asset.id

theorem listAsset_listsAssets {asset : AudioAssetRow}
    (listed : listAsset jobId before asset = .ok after) :
    ListsAssets jobId [asset] before after := by
  rw [listAsset, bind_eq_ok_iff] at listed
  obtain ⟨_, -, done⟩ := listed
  split at done
  · next present =>
    cases done
    exact ⟨rfl, rfl, rfl, fun _ member => member, fun _ member => .inl member,
      by simpa using present⟩
  · cases done
    refine ⟨rfl, rfl, rfl, fun _ member => mem_append_left _ member, ?_, ?_⟩
    · intro entry member
      rcases mem_append.mp member with old | new
      · exact .inl old
      · exact .inr ⟨asset, mem_singleton_self _, mem_singleton.mp new⟩
    · intro other isAsset
      rw [mem_singleton.mp isAsset]
      exact ⟨_, mem_append_right _ (mem_singleton_self _), rfl, rfl⟩

theorem foldlM_listAsset {assets : List AudioAssetRow}
    (folded : assets.foldlM (listAsset jobId) before = .ok after) :
    ListsAssets jobId assets before after := by
  apply foldlM_history (fun done => ListsAssets jobId done before) [] _ folded
  · exact ⟨rfl, rfl, rfl, fun _ member => member, fun _ member => .inl member, by simp⟩
  · intro done asset _ middle next stepped soFar
    have step := listAsset_listsAssets stepped
    refine ⟨step.meetings.trans soFar.meetings, step.audioAssets.trans soFar.audioAssets,
      step.cleanupJobs.trans soFar.cleanupJobs, ?_, ?_, ?_⟩
    · exact fun entry member => step.kept entry (soFar.kept entry member)
    · intro entry member
      rcases step.added entry member with old | ⟨other, isAsset, rfl⟩
      · rcases soFar.added entry old with older | ⟨other, isDone, rfl⟩
        · exact .inl older
        · exact .inr ⟨other, mem_append_left _ isDone, rfl⟩
      · exact .inr ⟨other, mem_append_right _ isAsset, rfl⟩
    · intro other member
      rcases mem_append.mp member with isDone | isAsset
      · obtain ⟨entry, old, keys⟩ := soFar.listed other isDone
        exact ⟨entry, step.kept entry old, keys⟩
      · exact step.listed other isAsset

/-- Every audio asset of a meeting is listed in the cleanup job of the meeting. -/
def CleanupListed (meetingId : String) (db : AudioDb κ) : Prop :=
  ∀ asset ∈ db.audioAssets, asset.meetingId = meetingId →
    ∃ job ∈ db.cleanupJobs, job.meetingId = meetingId ∧ ∃ entry ∈ db.cleanupJobAssets,
      entry.cleanupJobId = job.id ∧ entry.audioAssetId = asset.id ∧
        entry.relativePath = asset.relativePath

instance (meetingId : String) (db : AudioDb κ) : Decidable (CleanupListed meetingId db) :=
  inferInstanceAs (Decidable (∀ asset ∈ db.audioAssets, _ → ∃ job ∈ db.cleanupJobs, _ ∧
    ∃ entry ∈ db.cleanupJobAssets, _ ∧ _ ∧ _))

/-- The tables that deletions rest on are sound, only a deleted meeting has a
cleanup job, and the job of a deleted one lists its assets. -/
structure CleanupTracked (meetingId : String) (db : AudioDb κ) : Prop where
  distinct : (db.audioAssets.map AudioAssetRow.id).Nodup
  referenced : ∀ entry ∈ db.cleanupJobAssets, ∃ job ∈ db.cleanupJobs,
    job.id = entry.cleanupJobId
  onlyDeleted : ∀ job ∈ db.cleanupJobs, job.meetingId = meetingId → MarkedDeleted meetingId db
  listed : MarkedDeleted meetingId db → CleanupListed meetingId db

/-- A transaction of an `apply_*` request on a meeting that is not deleted. -/
theorem CleanupTracked.apply (tracked : CleanupTracked meetingId before)
    (kept : KeepsCleanup before after) (live : ¬MarkedDeleted meetingId before) :
    CleanupTracked meetingId after where
  distinct := kept.distinct tracked.distinct
  referenced := by
    rw [kept.cleanupJobs, kept.cleanupJobAssets]
    exact tracked.referenced
  onlyDeleted job member ofMeeting := by
    rw [kept.cleanupJobs] at member
    exact absurd (tracked.onlyDeleted job member ofMeeting) live
  listed deleted := absurd ((kept.marked meetingId).mp deleted) live

/-- A meeting has its cleanup job after the insertion: the one it had, whose
identifier was looked up before, or a new one. -/
theorem insertCleanupJob_cases {db : AudioDb κ}
    (inserted : insertCleanupJob meetingId (((db.cleanupJobs.find? fun job =>
      job.meetingId = meetingId).map CleanupJobRow.id).getD newJobId) now db = .ok after) :
    ∃ job, job.meetingId = meetingId ∧ job.id = ((db.cleanupJobs.find? fun job =>
        job.meetingId = meetingId).map CleanupJobRow.id).getD newJobId ∧
      ((job ∈ db.cleanupJobs ∧ after = db) ∨
        (((∀ other ∈ db.cleanupJobs, other.id ≠ job.id) ∧ ∃ row ∈ db.meetings, row.id = meetingId) ∧
          after = { db with cleanupJobs := db.cleanupJobs ++ [job] })) := by
  rw [insertCleanupJob] at inserted
  cases found : db.cleanupJobs.find? fun job => job.meetingId = meetingId with
  | some job =>
    have member : job ∈ db.cleanupJobs := mem_of_find?_eq_some found
    have ofMeeting : job.meetingId = meetingId := by simpa using find?_some found
    rw [if_pos ⟨job, member, ofMeeting⟩] at inserted
    cases inserted
    exact ⟨job, ofMeeting, rfl, .inl ⟨member, rfl⟩⟩
  | none =>
    have absent : ¬∃ job ∈ db.cleanupJobs, job.meetingId = meetingId := by
      simpa using found
    rw [if_neg absent, found, bind_eq_ok_iff] at inserted
    obtain ⟨_, fresh, done⟩ := inserted
    cases done
    exact ⟨_, rfl, rfl, .inr ⟨ensure_eq_ok_iff.mp fresh, rfl⟩⟩

/-- What a deletion does to the cleanup jobs: the meeting keeps the job it has
or gets a new one, and that job lists the assets. -/
structure Deletes (meetingId : String) (before after : AudioDb κ) (job : CleanupJobRow) : Prop where
  audioAssets : after.audioAssets = before.audioAssets
  marked : (∃ row ∈ before.meetings, row.id = meetingId) → MarkedDeleted meetingId after
  ofMeeting : job.meetingId = meetingId
  jobs : (job ∈ before.cleanupJobs ∧ after.cleanupJobs = before.cleanupJobs) ∨
    (((∀ other ∈ before.cleanupJobs, other.id ≠ job.id) ∧
        ∃ row ∈ before.meetings, row.id = meetingId) ∧
      after.cleanupJobs = before.cleanupJobs ++ [job])
  kept : ∀ entry ∈ before.cleanupJobAssets, entry ∈ after.cleanupJobAssets
  added : ∀ entry ∈ after.cleanupJobAssets, entry ∈ before.cleanupJobAssets ∨
    ∃ asset ∈ before.audioAssets, entry = ⟨job.id, asset.id, asset.relativePath⟩
  listed : ∀ asset ∈ before.audioAssets, asset.meetingId = meetingId →
    ∃ entry ∈ after.cleanupJobAssets, entry.cleanupJobId = job.id ∧ entry.audioAssetId = asset.id

theorem deleteMeeting_deletes (deleted : deleteMeeting meetingId newJobId now before = .ok after) :
    ∃ job, Deletes meetingId before after job := by
  rw [deleteMeeting, bind_eq_ok_iff] at deleted
  obtain ⟨withJob, inserted, folded⟩ := deleted
  obtain ⟨job, ofMeeting, jobId, inserts⟩ := insertCleanupJob_cases inserted
  have lists := foldlM_listAsset folded
  have jobIdBefore : job.id = ((before.cleanupJobs.find? fun job =>
      job.meetingId = meetingId).map CleanupJobRow.id).getD newJobId := jobId
  rw [← jobIdBefore] at lists
  have tables : withJob.meetings = (markDeleted meetingId now before).meetings ∧
      withJob.audioAssets = before.audioAssets ∧
        withJob.cleanupJobAssets = before.cleanupJobAssets := by
    rcases inserts with ⟨-, rfl⟩ | ⟨-, rfl⟩
    · exact ⟨rfl, rfl, rfl⟩
    · exact ⟨rfl, rfl, rfl⟩
  obtain ⟨meetings, assets, entries⟩ := tables
  refine ⟨job, ?_⟩
  constructor
  · rw [lists.audioAssets, assets]
  · rintro ⟨row, member, rfl⟩
    rw [MarkedDeleted, lists.meetings, meetings]
    refine ⟨⟨_, mem_updateWhere.mpr ⟨row, member, rfl⟩, by simp⟩, ?_⟩
    intro other isMarked ofMeeting
    obtain ⟨old, -, rfl⟩ := mem_updateWhere.mp isMarked
    split
    · rfl
    · next otherwise => simp_all
  · exact ofMeeting
  · rw [lists.cleanupJobs]
    rcases inserts with ⟨member, rfl⟩ | ⟨⟨fresh, row, isMarked, same⟩, rfl⟩
    · exact .inl ⟨member, rfl⟩
    · obtain ⟨old, member, rfl⟩ := mem_updateWhere.mp isMarked
      refine .inr ⟨⟨fresh, old, member, ?_⟩, rfl⟩
      split at same
      · exact same
      · exact same
  · intro entry member
    exact lists.kept entry (by rwa [entries])
  · intro entry member
    rcases lists.added entry member with old | ⟨asset, isAsset, rfl⟩
    · exact .inl (by rwa [entries] at old)
    · rw [assets] at isAsset
      exact .inr ⟨asset, (mem_filter.mp isAsset).1, rfl⟩
  · intro asset member isOfMeeting
    apply lists.listed
    rw [assets]
    exact mem_filter.mpr ⟨member, by simpa using isOfMeeting⟩

/-- The transaction of a deletion, also of a meeting deleted before. -/
theorem CleanupTracked.delete {job : CleanupJobRow} (tracked : CleanupTracked meetingId before)
    (deletes : Deletes meetingId before after job) : CleanupTracked meetingId after := by
  have jobsKept : ∀ other ∈ before.cleanupJobs, other ∈ after.cleanupJobs := by
    intro other member
    rcases deletes.jobs with ⟨-, same⟩ | ⟨-, more⟩
    · rwa [same]
    · rw [more]
      exact mem_append_left _ member
  have jobThere : job ∈ after.cleanupJobs := by
    rcases deletes.jobs with ⟨member, same⟩ | ⟨-, more⟩
    · rwa [same]
    · rw [more]
      exact mem_append_right _ (mem_singleton_self _)
  have present : ∃ row ∈ before.meetings, row.id = meetingId := by
    rcases deletes.jobs with ⟨isOld, -⟩ | ⟨⟨-, present⟩, -⟩
    · exact (tracked.onlyDeleted job isOld deletes.ofMeeting).1
    · exact present
  have marked := deletes.marked present
  constructor
  · rw [deletes.audioAssets]
    exact tracked.distinct
  · intro entry member
    rcases deletes.added entry member with old | ⟨asset, -, rfl⟩
    · obtain ⟨other, isJob, same⟩ := tracked.referenced entry old
      exact ⟨other, jobsKept other isJob, same⟩
    · exact ⟨job, jobThere, rfl⟩
  · exact fun _ _ _ => marked
  · intro _ asset member ofMeeting
    rw [deletes.audioAssets] at member
    by_cases before' : MarkedDeleted meetingId before
    · obtain ⟨other, isJob, isOfMeeting, entry, isEntry, keys⟩ :=
        tracked.listed before' asset member ofMeeting
      exact ⟨other, jobsKept other isJob, isOfMeeting, entry, deletes.kept entry isEntry, keys⟩
    · -- the job is new, so its entries are those of this transaction
      have fresh : ∀ other ∈ before.cleanupJobs, other.id ≠ job.id := by
        rcases deletes.jobs with ⟨isOld, -⟩ | ⟨⟨fresh, -⟩, -⟩
        · exact absurd (tracked.onlyDeleted job isOld deletes.ofMeeting) before'
        · exact fresh
      obtain ⟨entry, isEntry, ofJob, ofAsset⟩ := deletes.listed asset member ofMeeting
      refine ⟨job, jobThere, deletes.ofMeeting, entry, isEntry, ofJob, ofAsset, ?_⟩
      rcases deletes.added entry isEntry with old | ⟨other, isAsset, rfl⟩
      · obtain ⟨older, isJob, same⟩ := tracked.referenced entry old
        exact absurd (same.trans ofJob) (fresh older isJob)
      · rw [inj_on_of_nodup_map tracked.distinct isAsset member ofAsset]

/-- The call that a step is about. -/
def DeletionAction.call? (state : DeletionState κ) : DeletionAction κ → Option (MeetingCall κ)
  | .check call => some call
  | .transact place _ _ => state.checked[place]?

/-- No `apply_*` request on the meeting of a deletion waits for its transaction when that of
the deletion begins. -/
def DeletionAction.Undisturbed (state : DeletionState κ) : DeletionAction κ → Prop
  | .check _ => True
  | .transact place _ _ => ∀ call ∈ state.checked[place]?, call.isApply = false →
      ∀ other ∈ state.checked, other.isApply = true → other.meetingId ≠ call.meetingId

instance (state : DeletionState κ) (action : DeletionAction κ) :
    Decidable (action.Undisturbed state) :=
  match action with
  | .check _ => inferInstanceAs (Decidable True)
  | .transact place _ _ => inferInstanceAs (Decidable
      (∀ call ∈ state.checked[place]?, _ → ∀ other ∈ state.checked, _ → _))

/-- Calls on one meeting. -/
def OfMeeting (meetingId : String) : Guard (DeletionState κ) (DeletionAction κ) Checked :=
  fun config action _ => ∀ call ∈ action.call? config.state, call.meetingId = meetingId

def OfMeetingUndisturbed (meetingId : String) :
    Guard (DeletionState κ) (DeletionAction κ) Checked :=
  fun config action next => OfMeeting meetingId config action next ∧
    action.Undisturbed config.state

instance (meetingId : String) (config : Config (DeletionState κ) Checked)
    (action : DeletionAction κ) (next : Config (DeletionState κ) Checked) :
    Decidable (OfMeeting meetingId config action next) :=
  inferInstanceAs (Decidable (∀ call ∈ _, _ = _))

instance (meetingId : String) (config : Config (DeletionState κ) Checked)
    (action : DeletionAction κ) (next : Config (DeletionState κ) Checked) :
    Decidable (OfMeetingUndisturbed meetingId config action next) :=
  inferInstanceAs (Decidable (_ ∧ _))

theorem MeetingCall.transact_keepsCleanup {call : MeetingCall κ} (isApply : call.isApply = true)
    (done : call.transact now newJobId before = .ok after) : KeepsCleanup before after := by
  cases call with
  | deleteMeeting _ => cases isApply
  | applyAudio request => exact applyAudio_keepsCleanup done
  | applyOther meetingId request => exact applyOther_keepsCleanup done

theorem readMeeting_of_deleted {db : AudioDb κ} (deleted : MarkedDeleted meetingId db) :
    readMeeting db.meetings meetingId = .error .notFound := by
  have none : db.meetings.find? (isLive meetingId) = none := by
    rw [find?_eq_none]
    intro row member live
    obtain ⟨same, notDeleted⟩ := of_decide_eq_true live
    have isDeleted := deleted.2 row member same
    rw [notDeleted] at isDeleted
    cases isDeleted
  rw [readMeeting, none]

/-- An `apply_*` request that is checked after the deletion is refused. -/
theorem MeetingCall.check_of_deleted {host : StoreHost} {db : AudioDb κ} {call : MeetingCall κ}
    (isApply : call.isApply = true) (deleted : MarkedDeleted call.meetingId db) :
    ∃ error, call.check host db.meetings = .error error := by
  cases checked : call.check host db.meetings with
  | error error => exact ⟨error, rfl⟩
  | ok _ =>
    exfalso
    have notFound := readMeeting_of_deleted deleted
    cases call with
    | deleteMeeting _ => cases isApply
    | applyAudio request =>
      simp only [check, checkAudio, bind_eq_ok_iff] at checked
      obtain ⟨-, -, -, -, meeting, found, -⟩ := checked
      cases notFound.symm.trans found
    | applyOther meetingId request =>
      simp only [check, bind_eq_ok_iff] at checked
      obtain ⟨-, -, meeting, found, -⟩ := checked
      cases notFound.symm.trans found

section Runs

variable {host : StoreHost} {meetingId : String}

variable {config next : Config (DeletionState κ) Checked} {action : DeletionAction κ}

/-- A check lets its call wait or refuses it, and a transaction of a waiting call succeeds or
changes nothing. -/
theorem deletionStep_cases (advanced : advance (deletionStep host) config action = some next) :
    (∃ call, action = .check call ∧ next.state.db = config.state.db ∧
        (next.state.checked = config.state.checked ∨
          (∃ done, call.check host config.state.db.meetings = .ok done) ∧
            next.state.checked = config.state.checked ++ [call])) ∨
      ∃ place now newJobId call, action = .transact place now newJobId ∧
        config.state.checked[place]? = some call ∧
          next.state.checked = config.state.checked.eraseIdx place ∧
            (next.state.db = config.state.db ∨
              call.transact now newJobId config.state.db = .ok next.state.db) := by
  obtain ⟨emitted, stepped, -⟩ := advance_eq_some_iff.mp advanced
  cases action with
  | check call =>
    left
    simp only [deletionStep] at stepped
    split at stepped
    · next done checked =>
      obtain ⟨same, -⟩ := Prod.mk.inj (Option.some.inj stepped)
      rw [← same]
      exact ⟨call, rfl, rfl, .inr ⟨⟨done, checked⟩, rfl⟩⟩
    · obtain ⟨same, -⟩ := Prod.mk.inj (Option.some.inj stepped)
      rw [← same]
      exact ⟨call, rfl, rfl, .inl rfl⟩
  | transact place now newJobId =>
    right
    simp only [deletionStep] at stepped
    split at stepped
    · cases stepped
    · next call waiting =>
      split at stepped
      · next db done =>
        obtain ⟨same, -⟩ := Prod.mk.inj (Option.some.inj stepped)
        rw [← same]
        exact ⟨place, now, newJobId, call, rfl, waiting, rfl, .inr done⟩
      · obtain ⟨same, -⟩ := Prod.mk.inj (Option.some.inj stepped)
        rw [← same]
        exact ⟨place, now, newJobId, call, rfl, waiting, rfl, .inl rfl⟩

/-- The deletions are tracked, the waiting calls are on the meeting, and none of them is an
`apply_*` request once the meeting is deleted. -/
structure DeletionTracked (meetingId : String) (state : DeletionState κ) : Prop where
  tracked : CleanupTracked meetingId state.db
  ofMeeting : ∀ call ∈ state.checked, call.meetingId = meetingId
  unwaited : MarkedDeleted meetingId state.db → ∀ call ∈ state.checked, call.isApply = false

theorem DeletionTracked.step (settled : DeletionTracked meetingId config.state)
    (advanced : advance (deletionStep host) config action = some next)
    (admitted : OfMeetingUndisturbed meetingId config action next) :
    DeletionTracked meetingId next.state := by
  obtain ⟨ofMeeting, undisturbed⟩ := admitted
  rcases deletionStep_cases advanced with ⟨call, rfl, sameDb, waits⟩ |
    ⟨place, now, newJobId, call, rfl, waiting, erased, sameDb | done⟩
  · obtain rfl : call.meetingId = meetingId := ofMeeting call rfl
    rcases waits with same | ⟨⟨_, checked⟩, more⟩
    · exact ⟨sameDb ▸ settled.tracked, same ▸ settled.ofMeeting,
        sameDb ▸ same ▸ settled.unwaited⟩
    · refine ⟨sameDb ▸ settled.tracked, ?_, ?_⟩
      · rw [more, forall_mem_append, forall_mem_singleton]
        exact ⟨settled.ofMeeting, rfl⟩
      · rw [sameDb, more]
        intro deleted
        rw [forall_mem_append, forall_mem_singleton]
        refine ⟨settled.unwaited deleted, ?_⟩
        cases isApply : call.isApply with
        | false => rfl
        | true =>
          obtain ⟨error, refused⟩ := @MeetingCall.check_of_deleted _ host _ _ isApply deleted
          cases refused.symm.trans checked
  · have fewer : ∀ other ∈ next.state.checked, other ∈ config.state.checked := by
      rw [erased]
      exact fun other member => mem_of_mem_eraseIdx member
    exact ⟨sameDb ▸ settled.tracked, fun other member => settled.ofMeeting other (fewer _ member),
      fun deleted other member => settled.unwaited (sameDb ▸ deleted) other (fewer _ member)⟩
  · have fewer : ∀ other ∈ next.state.checked, other ∈ config.state.checked := by
      rw [erased]
      exact fun other member => mem_of_mem_eraseIdx member
    obtain rfl := settled.ofMeeting call (mem_of_getElem? waiting)
    have live (isApply : call.isApply = true) :
        ¬MarkedDeleted call.meetingId config.state.db := by
      intro deleted
      have unwaited := settled.unwaited deleted call (mem_of_getElem? waiting)
      rw [isApply] at unwaited
      cases unwaited
    refine ⟨?_, fun other member => settled.ofMeeting other (fewer _ member), ?_⟩
    · cases isApply : call.isApply with
      | true =>
        exact settled.tracked.apply (call.transact_keepsCleanup isApply done) (live isApply)
      | false =>
        cases call with
        | deleteMeeting meetingId =>
          obtain ⟨job, deletes⟩ := deleteMeeting_deletes done
          exact settled.tracked.delete deletes
        | applyAudio _ => cases isApply
        | applyOther _ _ => cases isApply
    · intro deleted other member
      cases isApply : call.isApply with
      | true =>
        have kept := call.transact_keepsCleanup isApply done
        exact absurd ((kept.marked _).mp deleted) (live isApply)
      | false =>
        cases otherApplies : other.isApply with
        | false => rfl
        | true =>
          have apart := undisturbed call waiting isApply other (fewer _ member) otherApplies
          exact absurd (settled.ofMeeting other (fewer _ member)) apart

/-- In every run on a meeting in which no `apply_*` request waits for its transaction when that
of a deletion begins: once the meeting is deleted, its cleanup job lists all its audio assets,
no later step of an `apply_*` request changes the tables, and those that come later are
refused. -/
theorem deletion_final {db : AudioDb κ} (sound : CleanupTracked meetingId db)
    (reaches : Reaches (deletionStep host) (OfMeetingUndisturbed meetingId) ⟨db, []⟩ config)
    (deleted : MarkedDeleted meetingId config.state.db) : CleanupListed meetingId config.state.db ∧
      (∀ action next, advance (deletionStep host) config action = some next →
        OfMeeting meetingId config action next →
          (∀ call ∈ action.call? config.state, call.isApply) →
            next.state.db = config.state.db) ∧
      ∀ call : MeetingCall κ, call.isApply → call.meetingId = meetingId →
        ∃ error, deletionStep host config.state (.check call) =
          some (config.state, [.error error]) := by
  have settled : DeletionTracked meetingId config.state := by
    apply reaches.invariant (fun config => DeletionTracked meetingId config.state)
    · exact ⟨sound, by simp [Config.initial], by simp [Config.initial]⟩
    · exact fun _ _ _ _ settled advanced admitted => settled.step advanced admitted
  refine ⟨settled.tracked.listed deleted, ?_, ?_⟩
  · intro action next advanced _ isApply
    rcases deletionStep_cases advanced with ⟨-, -, same, -⟩ |
      ⟨place, now, newJobId, call, rfl, waiting, -⟩
    · exact same
    · have unwaited := settled.unwaited deleted call (mem_of_getElem? waiting)
      rw [isApply call waiting] at unwaited
      cases unwaited
  · rintro call isApply rfl
    obtain ⟨error, refused⟩ := @MeetingCall.check_of_deleted _ host _ _ isApply deleted
    exact ⟨error, by simp only [deletionStep, refused]⟩

end Runs

def microphoneAsset : MeetingAudioAssetUpsertDto where
  id := "a"
  sourceKind := .microphone
  timelinePart := 0
  fileName := "part-0.wav"
  format := "wav"
  sampleRate := 16000
  channels := 1
  timelineStartMs := 0
  timelineEndMs := some 60
  durationMs := some 60
  bytes := some 1964
  checksum := none
  status := .finalized

def finishedRecording : MeetingCall Unit :=
  .applyAudio
    { meetingId := "m", assets := [microphoneAsset], replaceRefinementManifestForJobId := none
      refinementInputs := [] }

def beforeDeletion : AudioDb Unit where
  meetings := [recordingMeeting]
  audioAssets := []
  refinementInputs := []
  cleanupJobs := []
  cleanupJobAssets := []
  others := { refinementJobs := [], rest := ⟨⟩ }

theorem beforeDeletion_tracked : CleanupTracked "m" beforeDeletion where
  distinct := nodup_nil
  referenced := by simp [beforeDeletion]
  onlyDeleted := by simp [beforeDeletion]
  listed _ := by simp [CleanupListed, beforeDeletion]

/-- The audio is applied between the check of a deletion and its transaction, and once more
behind them. -/
theorem deletion_final_afterAudio :
    ∃ config, Reaches (deletionStep plainHost) (OfMeetingUndisturbed "m") ⟨beforeDeletion, []⟩
        config ∧
      config.trace.map Except.isOk = [true, true, false] ∧
      CleanupListed "m" config.state.db ∧
      (∀ action next, advance (deletionStep plainHost) config action = some next →
        OfMeeting "m" config action next →
          (∀ call ∈ action.call? config.state, call.isApply) →
            next.state.db = config.state.db) ∧
      ∀ call : MeetingCall Unit, call.isApply → call.meetingId = "m" →
        ∃ error, deletionStep plainHost config.state (.check call) =
          some (config.state, [.error error]) := by
  obtain ⟨config, reaches, answers, deleted⟩ := exists_reaches_of_exec (deletionStep plainHost)
    (OfMeetingUndisturbed "m") ⟨beforeDeletion, []⟩
    (fun config => config.trace.map Except.isOk = [true, true, false] ∧
      MarkedDeleted "m" config.state.db)
    [.check finishedRecording, .check (.deleteMeeting "m"), .transact 0 1 "",
      .transact 0 2 "job", .check finishedRecording]
    (by decide +kernel) (by decide +kernel)
  exact ⟨config, reaches, answers, deletion_final beforeDeletion_tracked reaches deleted⟩

/-- The audio is checked before the deletion and applied after it. -/
theorem not_deletion_final_aroundCheck :
    ∃ config action next, Reaches (deletionStep plainHost) (OfMeeting "m") ⟨beforeDeletion, []⟩
        config ∧
      MarkedDeleted "m" config.state.db ∧
        advance (deletionStep plainHost) config action = some next ∧
          OfMeeting "m" config action next ∧ (∀ call ∈ action.call? config.state, call.isApply) ∧
            (∃ asset ∈ next.state.db.audioAssets, asset ∉ config.state.db.audioAssets) ∧
              ¬CleanupListed "m" next.state.db := by
  obtain ⟨config, reaches, deleted, next, advanced, ofMeeting, changed⟩ := exists_reaches_of_exec
    (deletionStep plainHost) (OfMeeting "m") ⟨beforeDeletion, []⟩
    (fun config => MarkedDeleted "m" config.state.db ∧
      ∃ next ∈ advance (deletionStep plainHost) config (.transact 0 3 ""),
        OfMeeting "m" config (.transact 0 3 "") next ∧
          (∀ call ∈ DeletionAction.call? config.state (.transact 0 3 ""), call.isApply) ∧
            (∃ asset ∈ next.state.db.audioAssets, asset ∉ config.state.db.audioAssets) ∧
              ¬CleanupListed "m" next.state.db)
    [.check finishedRecording, .check (.deleteMeeting "m"), .transact 1 2 "job"]
    (by decide +kernel) (by decide +kernel)
  exact ⟨config, .transact 0 3 "", next, reaches, deleted, advanced, ofMeeting, changed⟩

end Obelus.Meetings
