import Obelus.Meetings.AudioAssets
import Obelus.Meetings.Refinement

/-!
# Recovery at startup

`recover` interrupts what a process that is gone was working on, one update a table, and
reports the jobs that are to be taken up again.  An update whose new rows do not satisfy its
condition leaves nothing to do for a second one.
-/

namespace Obelus.Data

universe u

variable {ρ : Type u} {condition : ρ → Bool} {change later : ρ → ρ} {table : List ρ}

/-- No row satisfies the condition any more, and the rows that did not are unchanged and in
their places. -/
structure Settled (condition : ρ → Bool) (before after : List ρ) : Prop where
  length_eq : after.length = before.length
  none : ∀ row ∈ after, condition row = false
  kept : ∀ (place : Nat) row, before[place]? = some row → condition row = false →
    after[place]? = some row

theorem settled_updateWhere (settles : ∀ row, condition (change row) = false) :
    Settled condition table (updateWhere condition change table) where
  length_eq := List.length_map _
  none := by
    intro row member
    obtain ⟨before, -, rfl⟩ := mem_updateWhere.mp member
    split
    · exact settles before
    · next unmet => exact Bool.eq_false_iff.mpr unmet
  kept place row here unmet := by
    rw [updateWhere, List.getElem?_map, here, Option.map_some, unmet]
    rfl

theorem updateWhere_of_forall (unmet : ∀ row ∈ table, condition row = false) :
    updateWhere condition later table = table := by
  refine (List.map_congr_left fun row member => ?_).trans (List.map_id table)
  rw [unmet row member]
  rfl

end Obelus.Data

namespace Obelus.Meetings

open Obelus.Data List

/-- A row of `cleanup_jobs` with the time of its next attempt. -/
structure CleanupJobRecord extends CleanupJobRow where
  nextRetryAtMs : Option Int

structure RecoveryDb where
  meetings : List MeetingRecord
  audioAssets : List AudioAssetRow
  researchJobs : List ResearchJobRecord
  refinementJobs : List RefinementJobRow
  cleanupJobs : List CleanupJobRecord

structure MeetingRecoverResponse where
  interruptedMeetingIds : List String
  refinementJobIds : List String
  researchJobIds : List String
  cleanupJobIds : List String

def MeetingRecord.isInterrupted (row : MeetingRecord) : Bool :=
  row.deletedAtMs = none ∧
    row.status ∈ [MeetingLifecycleStatus.starting, .recording, .paused, .stopping, .finalizing]

def AudioAssetRow.isRecording (row : AudioAssetRow) : Bool :=
  match row.status with
  | .recording => true
  | _ => false

def ResearchJobRecord.isRunning (row : ResearchJobRecord) : Bool :=
  row.status = .running

def RefinementJobRow.isRunning (row : RefinementJobRow) : Bool :=
  match row.status with
  | .uploading | .processing | .reconciling => true
  | _ => false

def MeetingCleanupStatus.isRunning : MeetingCleanupStatus → Bool
  | .running => true
  | _ => false

/-- `IN ('pending','retry_wait')`. -/
def MeetingCleanupStatus.isWaiting : MeetingCleanupStatus → Bool
  | .pending | .retryWait => true
  | _ => false

/-- `CASE WHEN … = 'running' THEN 'retry_wait' ELSE … END`. -/
def MeetingCleanupStatus.interrupted (status : MeetingCleanupStatus) : MeetingCleanupStatus :=
  if status.isRunning then .retryWait else status

/-- `cleanup_terminal`. -/
def cleanupTerminal : MeetingCleanupStatus → Bool
  | .complete | .unavailable => true
  | _ => false

namespace CleanupJobRecord

def parts (row : CleanupJobRecord) : List MeetingCleanupStatus :=
  [row.localStatus, row.gatewayStatus, row.providerStatus]

def isRunning (row : CleanupJobRecord) : Bool :=
  row.parts.any MeetingCleanupStatus.isRunning

def isReported (row : CleanupJobRecord) : Bool :=
  row.parts.any MeetingCleanupStatus.isWaiting && !row.isRunning

end CleanupJobRecord

/-- The updates of `recover`. -/
def reconcile (now : Int) (db : RecoveryDb) : RecoveryDb where
  meetings := updateWhere MeetingRecord.isInterrupted
    (fun row => { row with
      status := .interrupted
      captureStatus := .interrupted
      updatedAtMs := now }) db.meetings
  audioAssets := updateWhere AudioAssetRow.isRecording
    (fun row => { row with status := .interrupted, updatedAtMs := now }) db.audioAssets
  researchJobs := updateWhere ResearchJobRecord.isRunning
    (fun row => { row with
      status := .retryWait
      nextRetryAtMs := some (row.nextRetryAtMs.getD now)
      updatedAtMs := now }) db.researchJobs
  refinementJobs := updateWhere RefinementJobRow.isRunning
    (fun row => { row with
      status := .retryWait
      nextRetryAtMs := some (row.nextRetryAtMs.getD now)
      updatedAtMs := now }) db.refinementJobs
  cleanupJobs := updateWhere CleanupJobRecord.isRunning
    (fun row => { row with
      localStatus := row.localStatus.interrupted
      gatewayStatus := row.gatewayStatus.interrupted
      providerStatus := row.providerStatus.interrupted
      nextRetryAtMs := some (row.nextRetryAtMs.getD now)
      updatedAtMs := now }) db.cleanupJobs

/-- `SELECT id … ORDER BY id`. -/
def selectIds {ρ : Type} (id : ρ → String) (condition : ρ → Bool) (table : List ρ) :
    List String :=
  ((table.filter condition).map id).mergeSort fun first second => first ≤ second

/-- `recover`, without the jobs that it reads for the ids it reports. -/
def recover (now : Int) (reconcileActiveWork : Bool) (db : RecoveryDb) :
    MeetingRecoverResponse × RecoveryDb :=
  let interruptedMeetingIds :=
    if reconcileActiveWork then
      selectIds (fun row => row.id) MeetingRecord.isInterrupted db.meetings
    else []
  let db := if reconcileActiveWork then reconcile now db else db
  ({ interruptedMeetingIds
     refinementJobIds := selectIds RefinementJobRow.id (fun row =>
       match row.status with
       | .retryWait => true
       | .queued => reconcileActiveWork
       | _ => false) db.refinementJobs
     researchJobIds := selectIds ResearchJobRecord.id (fun row =>
       row.status = .retryWait || reconcileActiveWork && row.status = .pending) db.researchJobs
     cleanupJobIds :=
       selectIds (fun row => row.id) CleanupJobRecord.isReported db.cleanupJobs }, db)

theorem mem_selectIds {ρ : Type} {id : ρ → String} {condition : ρ → Bool} {table : List ρ}
    {wanted : String} : wanted ∈ selectIds id condition table ↔
      ∃ row ∈ table, condition row = true ∧ id row = wanted := by
  simp [selectIds, and_assoc]

/-- Nothing that could be worked on is active, and everything else is unchanged. -/
structure Reconciled (before after : RecoveryDb) : Prop where
  meetings : Settled MeetingRecord.isInterrupted before.meetings after.meetings
  audioAssets : Settled AudioAssetRow.isRecording before.audioAssets after.audioAssets
  researchJobs : Settled ResearchJobRecord.isRunning before.researchJobs after.researchJobs
  refinementJobs : Settled RefinementJobRow.isRunning before.refinementJobs after.refinementJobs
  cleanupJobs : Settled CleanupJobRecord.isRunning before.cleanupJobs after.cleanupJobs

theorem MeetingCleanupStatus.isRunning_interrupted (status : MeetingCleanupStatus) :
    status.interrupted.isRunning = false := by
  cases status <;> rfl

theorem MeetingCleanupStatus.isWaiting_interrupted (status : MeetingCleanupStatus) :
    status.interrupted.isWaiting = (status.isWaiting || status.isRunning) := by
  cases status <;> rfl

variable {before after db : RecoveryDb} {now : Int}

theorem reconciled_reconcile (now : Int) (db : RecoveryDb) : Reconciled db (reconcile now db) where
  meetings := settled_updateWhere fun _ => by simp [MeetingRecord.isInterrupted]
  audioAssets := settled_updateWhere fun _ => rfl
  researchJobs := settled_updateWhere fun _ => by simp [ResearchJobRecord.isRunning]
  refinementJobs := settled_updateWhere fun _ => rfl
  cleanupJobs := settled_updateWhere fun _ => by
    simp [CleanupJobRecord.isRunning, CleanupJobRecord.parts,
      MeetingCleanupStatus.isRunning_interrupted]

theorem Reconciled.reconcile_eq (reconciled : Reconciled before after) :
    reconcile now after = after := by
  rw [reconcile, updateWhere_of_forall reconciled.meetings.none,
    updateWhere_of_forall reconciled.audioAssets.none,
    updateWhere_of_forall reconciled.researchJobs.none,
    updateWhere_of_forall reconciled.refinementJobs.none,
    updateWhere_of_forall reconciled.cleanupJobs.none]

/-- A job with a part that waits or was running is reported. -/
theorem mem_cleanupJobIds {job : CleanupJobRecord} (member : job ∈ db.cleanupJobs)
    (unfinished : ∃ part ∈ job.parts, part.isWaiting || part.isRunning) :
    job.id ∈ (recover now true db).1.cleanupJobIds := by
  apply mem_selectIds.mpr
  refine ⟨_, mem_updateWhere.mpr ⟨job, member, rfl⟩, ?_, by split <;> rfl⟩
  obtain ⟨part, isPart, waits⟩ := unfinished
  have reported : job.parts.any (fun part => part.isWaiting || part.isRunning) = true :=
    any_eq_true.mpr ⟨part, isPart, waits⟩
  simp only [CleanupJobRecord.parts] at reported
  split
  · simp [CleanupJobRecord.isReported, CleanupJobRecord.isRunning, CleanupJobRecord.parts,
      MeetingCleanupStatus.isRunning_interrupted, MeetingCleanupStatus.isWaiting_interrupted]
    grind
  · simp_all [CleanupJobRecord.isReported, CleanupJobRecord.isRunning, CleanupJobRecord.parts]

/-- Reconciling leaves no meeting that is not deleted, no job and no asset active and the rest
unchanged, there is nothing left for a second time, and every cleanup job with a part that
waits or was running is reported each time, whatever has become of its meeting. -/
theorem recover_reconciles (now later : Int) (db : RecoveryDb) :
    Reconciled db (recover now true db).2 ∧
      recover later true (recover now true db).2 =
        ({ (recover now true db).1 with interruptedMeetingIds := [] }, (recover now true db).2) ∧
      (∀ job ∈ db.cleanupJobs, (∃ part ∈ job.parts, part.isWaiting || part.isRunning) →
        job.id ∈ (recover now true db).1.cleanupJobIds) ∧
      (recover now false db).2 = db := by
  have reconciled := reconciled_reconcile now db
  refine ⟨reconciled, ?_, fun job => mem_cleanupJobIds, rfl⟩
  have noneLeft : selectIds (fun row => row.id) MeetingRecord.isInterrupted
      (reconcile now db).meetings = [] := by
    apply eq_nil_iff_forall_not_mem.mpr
    intro id listed
    obtain ⟨row, member, active, -⟩ := mem_selectIds.mp listed
    simp [reconciled.meetings.none row member] at active
  simp [recover, noneLeft, reconciled.reconcile_eq]

/-- A deleted meeting keeps its active status, and a cleanup job whose last part failed is not
reported. -/
theorem not_recover_all :
    (¬∀ now db, ∀ row ∈ (recover now true db).2.meetings, row.status ≠ .recording) ∧
      ¬∀ now db, ∀ job ∈ db.cleanupJobs, (∃ part ∈ job.parts, cleanupTerminal part = false) →
        job.id ∈ (recover now true db).1.cleanupJobIds := by
  constructor
  · intro settles
    refine settles 1
      ⟨[⟨⟨"m", "t", .meeting, .call, .recording, 0, none, none, .active, .notStarted, .notStarted,
        none, 0, 0⟩, some 0⟩], [], [], [], []⟩ _ mem_cons_self rfl
  · intro reports
    have reported := reports 1
      ⟨[], [], [], [], [⟨⟨"c", "m", .failed, .complete, .complete, 1, 0, 0⟩, none⟩]⟩ _
      mem_cons_self ⟨.failed, mem_cons_self, rfl⟩
    revert reported
    decide +kernel

end Obelus.Meetings
