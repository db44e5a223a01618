import Obelus.Data.Overwritten
import Obelus.Meetings.RefinementRedelivery

/-!
# Research and the current version of a claim

A job and an assessment each move the claim of the version they are addressed to.  The
pointer to the current version is not read: research for a version that was superseded
moves the claim as well.
-/

namespace Obelus.Meetings

open Obelus.Data
open Obelus.Transition

/-- The version a part of a request is addressed to, and the status that follows from the
part. -/
structure StatusUpdate where
  claimVersionId : String
  status : MeetingClaimStatus

def MeetingResearchJobUpsertDto.statusUpdate (job : MeetingResearchJobUpsertDto) :
    StatusUpdate :=
  ⟨job.claimVersionId, claimStatusForResearchJob job.stage job.status⟩

def MeetingAssessmentApplyDto.statusUpdate (assessment : MeetingAssessmentApplyDto) :
    StatusUpdate :=
  ⟨assessment.claimVersionId, claimStatusForAssessment assessment.stage assessment.status⟩

/-- The updates of a request in the order in which they are made. -/
def MeetingResearchApplyRequest.statusUpdates (request : MeetingResearchApplyRequest) :
    List StatusUpdate :=
  request.job.toList.map MeetingResearchJobUpsertDto.statusUpdate ++
    request.assessment.toList.map MeetingAssessmentApplyDto.statusUpdate

/-- The update is addressed to a version of the claim. -/
def StatusUpdate.addresses (tables : ClaimTables) (meetingId : String) (claim : ClaimRow)
    (update : StatusUpdate) : Bool :=
  claim.meetingId = meetingId ∧ some claim.id =
    (lookup ClaimVersionRow.id tables.versions update.claimVersionId).map ClaimVersionRow.claimId

/-- The update is addressed to the current version of the claim. -/
def StatusUpdate.addressesCurrent (tables : ClaimTables) (meetingId : String) (claim : ClaimRow)
    (update : StatusUpdate) : Bool :=
  update.addresses tables meetingId claim ∧
    claim.currentClaimVersionId = some update.claimVersionId

/-- The status of a claim after the updates for its current version. -/
def ClaimRow.followed (tables : ClaimTables) (meetingId : String) (updates : List StatusUpdate)
    (claim : ClaimRow) : MeetingClaimStatus :=
  overwritten (StatusUpdate.addressesCurrent tables meetingId claim) StatusUpdate.status
    claim.status updates

section Moved

variable {now : Int} {meetingId : String}

/-- The claims after one update. -/
def ClaimTables.moved (now : Int) (meetingId : String) (tables : ClaimTables)
    (update : StatusUpdate) : ClaimTables :=
  { tables with
    claims := updateWhere (fun claim => update.addresses tables meetingId claim)
      (fun claim => { claim with status := update.status, updatedAtMs := now }) tables.claims }

theorem updateClaimStatusForVersion_eq_ok {tables changed : ClaimTables} {update : StatusUpdate}
    (applied : updateClaimStatusForVersion now meetingId update.claimVersionId update.status
      tables = .ok changed) : changed = tables.moved now meetingId update := by
  simp only [updateClaimStatusForVersion, bind_eq_ok_iff] at applied
  obtain ⟨-, -, stored⟩ := applied
  cases stored
  rfl

theorem applyResearchJob_eq_ok {db changed : ResearchDb} {job : MeetingResearchJobUpsertDto}
    (applied : applyResearchJob now meetingId db job = .ok changed) :
    changed.claims = db.claims.moved now meetingId job.statusUpdate := by
  simp only [applyResearchJob, bind_eq_ok_iff] at applied
  obtain ⟨research, -, claims, moved, stored⟩ := applied
  cases stored
  exact updateClaimStatusForVersion_eq_ok moved

theorem applyAssessment_eq_ok {db changed : ResearchDb} {assessment : MeetingAssessmentApplyDto}
    (applied : applyAssessment now meetingId db assessment = .ok changed) :
    changed.claims = db.claims.moved now meetingId assessment.statusUpdate := by
  simp only [applyAssessment, bind_eq_ok_iff] at applied
  obtain ⟨research, -, claims, moved, stored⟩ := applied
  cases stored
  exact updateClaimStatusForVersion_eq_ok moved

/-- An accepted request makes its updates one after another. -/
theorem claims_applyResearch {host : ResearchHost} {request : MeetingResearchApplyRequest}
    {db : ResearchDb} (accepted : (applyResearch host now request db).1 = .ok ⟨⟩) :
    (applyResearch host now request db).2.claims =
      request.statusUpdates.foldl (ClaimTables.moved now request.meetingId) db.claims := by
  rcases transaction_cases (applyResearchChanges host now request) db with
    ⟨error, served, -⟩ | ⟨result, changed, served, applied⟩
  · rw [applyResearch, served] at accepted
    cases accepted
  · rw [applyResearch, served]
    simp only [applyResearchChanges, bind_eq_ok_iff] at applied
    obtain ⟨-, -, -, -, -, -, -, -, -, -, withJob, jobApplied, withAssessment, assessmentApplied,
      stored⟩ := applied
    cases stored
    have byJob : withJob.claims = (request.job.toList.map
        MeetingResearchJobUpsertDto.statusUpdate).foldl
          (ClaimTables.moved now request.meetingId) db.claims := by
      cases job : request.job with
      | none =>
        rw [job] at jobApplied
        cases jobApplied
        rfl
      | some job' =>
        rw [job] at jobApplied
        apply applyResearchJob_eq_ok
        simpa using jobApplied
    have byAssessment : withAssessment.claims = (request.assessment.toList.map
        MeetingAssessmentApplyDto.statusUpdate).foldl
          (ClaimTables.moved now request.meetingId) withJob.claims := by
      cases assessment : request.assessment with
      | none =>
        rw [assessment] at assessmentApplied
        cases assessmentApplied
        rfl
      | some assessment' =>
        rw [assessment] at assessmentApplied
        apply applyAssessment_eq_ok
        simpa using assessmentApplied
    rw [MeetingResearchApplyRequest.statusUpdates, List.foldl_append, ← byJob, ← byAssessment]
    rfl

/-- The status of a claim after updates is the one of the last that is addressed to it. -/
theorem status_lookup_foldl_moved (tables : ClaimTables) (updates : List StatusUpdate)
    (claimId : String) :
    (lookup ClaimRow.id (updates.foldl (ClaimTables.moved now meetingId) tables).claims
      claimId).map ClaimRow.status =
        (lookup ClaimRow.id tables.claims claimId).map fun claim =>
          overwritten (StatusUpdate.addresses tables meetingId claim) StatusUpdate.status
            claim.status updates := by
  induction updates generalizing tables with
  | nil => rfl
  | cons update rest ih =>
    rw [List.foldl_cons, ih]
    have found : lookup ClaimRow.id (tables.moved now meetingId update).claims claimId =
        (lookup ClaimRow.id tables.claims claimId).map fun claim =>
          if update.addresses tables meetingId claim then
            { claim with status := update.status, updatedAtMs := now } else claim :=
      @lookup_updateWhere _ _ _ (fun claim : ClaimRow =>
        { claim with status := update.status, updatedAtMs := now }) _ _ ClaimRow.id
        (fun _ => rfl) claimId
    rw [found, Option.map_map]
    apply congrArg (Option.map · _)
    funext claim
    rw [Function.comp_apply, overwritten_cons]
    by_cases addressed : update.addresses tables meetingId claim
    · rw [if_pos addressed, if_pos addressed]
      rfl
    · rw [if_neg addressed, if_neg addressed]
      rfl

end Moved

/-- An accepted request leaves every claim with the status that follows from the updates for
its current version, and a refused one leaves the store as it was. -/
def FollowsCurrent (host : ResearchHost) (now : Int) (request : MeetingResearchApplyRequest)
    (db : ResearchDb) : Prop :=
  match (applyResearch host now request db).1 with
  | .ok _ => ∀ claimId,
      (lookup ClaimRow.id (applyResearch host now request db).2.claims.claims claimId).map
        ClaimRow.status =
          (lookup ClaimRow.id db.claims.claims claimId).map
            (ClaimRow.followed db.claims request.meetingId request.statusUpdates)
  | .error _ => (applyResearch host now request db).2 = db

/-- The last update addressed to a claim is addressed to its current version, or gives it the
status it has anyway. -/
def MeetingResearchApplyRequest.LeavesOthers (request : MeetingResearchApplyRequest)
    (tables : ClaimTables) : Prop :=
  ∀ claimId claim, lookup ClaimRow.id tables.claims claimId = some claim →
    ∀ front update back, request.statusUpdates = front ++ update :: back →
      update.addresses tables request.meetingId claim →
        (∀ later ∈ back, later.addresses tables request.meetingId claim = false) →
          update.addressesCurrent tables request.meetingId claim ∨
            update.status = claim.followed tables request.meetingId front

/-- The claims follow their current versions exactly through the requests that are refused or
leave the claims of other versions alone. -/
theorem followsCurrent_iff (host : ResearchHost) (now : Int)
    (request : MeetingResearchApplyRequest) (db : ResearchDb) : FollowsCurrent host now request db ↔
      ((applyResearch host now request db).1 = .ok ⟨⟩ → request.LeavesOthers db.claims) := by
  unfold FollowsCurrent
  rcases transaction_cases (applyResearchChanges host now request) db with
    ⟨error, served, -⟩ | ⟨result, changed, served, -⟩
  · have refused : applyResearch host now request db = (.error error, db) := served
    simp [refused]
  · have accepted : (applyResearch host now request db).1 = .ok ⟨⟩ := congrArg Prod.fst served
    simp only [accepted, claims_applyResearch accepted, status_lookup_foldl_moved, true_imp_iff]
    apply forall_congr'
    intro claimId
    cases found : lookup ClaimRow.id db.claims.claims claimId with
    | none => simp
    | some claim =>
      simp only [Option.map_some, Option.some.injEq, forall_eq']
      apply overwritten_eq_iff
      intro update current
      simp only [StatusUpdate.addressesCurrent, decide_eq_true_eq] at current
      exact current.1

/-- The research updates of a run meet a condition at the store they find. -/
def researchMeets
    (condition : Int → MeetingResearchApplyRequest → ResearchDb → Prop) :
    Guard RefinementDb RefinementAction ResultDelivery := fun config action _ =>
  ∀ now request, action = .research now request → condition now request config.state.toResearchDb

/-- In every order of version upserts, research updates, refinement jobs and results, the
claims follow their current versions through all research updates exactly if each of them is
refused or leaves the claims of other versions alone. -/
theorem status_followsCurrent_iff (host : ResearchHost) (start : RefinementDb)
    (actions : List RefinementAction) :
    Admissible (serveRefinement host) (researchMeets (FollowsCurrent host))
        (Config.initial start) actions ↔
      Admissible (serveRefinement host)
        (researchMeets fun now request db =>
          (applyResearch host now request db).1 = .ok ⟨⟩ → request.LeavesOthers db.claims)
        (Config.initial start) actions := by
  generalize Config.initial start = config
  induction actions generalizing config with
  | nil => exact Iff.rfl
  | cons action rest ih =>
    simp only [Admissible]
    cases advance (serveRefinement host) config action with
    | none => exact Iff.rfl
    | some next =>
      apply and_congr _ (ih next)
      simp only [researchMeets, followsCurrent_iff]

/-- Quick research of the first version, when the second one is current. -/
def recordedLateResearch : MeetingResearchApplyRequest where
  meetingId := recordedMeetingId
  job := some
    { id := "research-2"
      claimVersionId := "version-1"
      stage := .preliminary
      gatewayJobId := none
      idempotencyKey := "research-2"
      status := .failed
      attemptCount := 1
      nextRetryAtMs := none
      startedAtMs := none
      completedAtMs := some 30
      error := none }
  assessment := none

/-- The recorded claim is complete, and research of its first version fails late. -/
theorem not_followsCurrent_lateResearch : ¬Admissible (serveRefinement recordedResearchHost)
      (researchMeets (FollowsCurrent recordedResearchHost))
      (Config.initial afterRecordedResearch) [.research 30 recordedLateResearch] := by
  rintro ⟨follows, -⟩
  have followed : FollowsCurrent recordedResearchHost 30 recordedLateResearch
      afterRecordedResearch.toResearchDb := follows 30 recordedLateResearch rfl
  have accepted : (applyResearch recordedResearchHost 30 recordedLateResearch
      afterRecordedResearch.toResearchDb).1 = .ok ⟨⟩ := by
    decide +kernel
  have notFollowed : (lookup ClaimRow.id (applyResearch recordedResearchHost 30
      recordedLateResearch afterRecordedResearch.toResearchDb).2.claims.claims recordedClaimId).map
        ClaimRow.status ≠
      (lookup ClaimRow.id afterRecordedResearch.toResearchDb.claims.claims recordedClaimId).map
        (ClaimRow.followed afterRecordedResearch.toResearchDb.claims recordedMeetingId
          recordedLateResearch.statusUpdates) := by
    decide +kernel
  exact notFollowed (followed recordedClaimId)

end Obelus.Meetings
