import Obelus.Meetings.CurrentVersions

/-!
# Outcomes of research in the reducer and in the store

The runtime persists each outcome of a research stage and dispatches reducer actions for
it.  The reducer keeps the claims of the meeting with their statuses, and the store keeps
them in its rows.
-/

namespace Obelus.Meetings

open Obelus.Data
open List hiding lookup

/-- The identifier and the status of a claim in the reducer; its versions have no part in
the status. -/
structure LiveClaim where
  id : String
  status : MeetingClaimStatus

inductive ClaimAction
  | claimStatusChanged (claimId : String) (status : MeetingClaimStatus)
  | assessmentUpserted (claimId : String) (stage : MeetingAssessmentStage)
      (status : MeetingAssessmentStatus)
  | artifactLoaded (claims : List LiveClaim)

/-- The status that `upsertAssessment` gives a claim. -/
def statusAfterAssessment (status : MeetingClaimStatus) (stage : MeetingAssessmentStage) :
    MeetingAssessmentStatus → MeetingClaimStatus
  | .complete =>
    match stage with
    | .deep => .complete
    | .preliminary => .preliminary
  | .failed => status

/-- The cases of `meetingReducer` that change the statuses of claims. -/
def claimReducer (claims : List LiveClaim) : ClaimAction → List LiveClaim
  | .claimStatusChanged claimId status =>
    updateWhere (fun claim => claim.id = claimId) (fun claim => { claim with status }) claims
  | .assessmentUpserted claimId stage status =>
    updateWhere (fun claim => claim.id = claimId)
      (fun claim => { claim with status := statusAfterAssessment claim.status stage status })
      claims
  | .artifactLoaded claims => claims

/-- The claims of a loaded meeting. -/
def loadClaims (meetingId : String) (tables : ClaimTables) : List LiveClaim :=
  (tables.claims.filter fun claim => claim.meetingId = meetingId).map fun claim =>
    ⟨claim.id, claim.status⟩

def maxAutomaticResearchAttempts : Nat := 3

structure ResearchFailure where
  status : MeetingResearchJobStatus
  nextRetryAtMs : Option Int
  completedAtMs : Option Int
  error : MeetingTypedErrorDto

def researchFailureDisposition (error : MeetingTypedErrorDto) (attemptCount : UInt32)
    (cancelled : Bool) (now : Int) : ResearchFailure :=
  if cancelled then ⟨.cancelled, none, some now, { error with retryable := false }⟩
  else
    let retryable := error.retryable && attemptCount.toNat < maxAutomaticResearchAttempts
    ⟨if retryable then .retryWait else .failed, if retryable then some (now + 5000) else none,
      if retryable then none else some now, { error with retryable }⟩

/-- How a stage ends: with an assessment, still active after the polling, or with an error
that was returned, was thrown or came with a cancellation. -/
inductive ResearchOutcome
  | complete (assessment : MeetingAssessmentApplyDto)
  | stillActive
  | failed (error : MeetingTypedErrorDto) (cancelled : Bool)

/-- One call of `runResearchStage`.  A submission that was accepted has a gateway job with a
status. -/
structure ResearchAttempt where
  jobId : String
  stage : MeetingAssessmentStage
  idempotencyKey : String
  attemptCount : UInt32
  pollJobId : Option String
  startedAtMs : Int
  submitted : Option (String × MeetingResearchJobStatus)
  outcome : ResearchOutcome
  now : Int

inductive ResearchEffect
  | persistResearch (job : MeetingResearchJobUpsertDto)
      (assessment : Option MeetingAssessmentApplyDto)
  | loadCanonical
  | dispatch (action : ClaimAction)

namespace ResearchAttempt

def pendingJob (versionId : String) (attempt : ResearchAttempt) : MeetingResearchJobUpsertDto where
  id := attempt.jobId
  claimVersionId := versionId
  stage := attempt.stage
  gatewayJobId := attempt.pollJobId
  idempotencyKey := attempt.idempotencyKey
  status := .pending
  attemptCount := attempt.attemptCount
  nextRetryAtMs := none
  startedAtMs := some attempt.startedAtMs
  completedAtMs := none
  error := none

/-- The job of the gateway as far as it is known at the end. -/
def gatewayJobId (attempt : ResearchAttempt) : Option String :=
  (attempt.submitted.map Prod.fst).or attempt.pollJobId

def outcomeEffects (claimId versionId : String) (attempt : ResearchAttempt) :
    List ResearchEffect :=
  let job := { attempt.pendingJob versionId with gatewayJobId := attempt.gatewayJobId }
  match attempt.outcome with
  | .complete assessment =>
    [.persistResearch { job with status := .complete, completedAtMs := some attempt.now }
        (some { assessment with claimVersionId := versionId, status := .complete }),
      .dispatch (.assessmentUpserted claimId assessment.stage .complete)]
  | .stillActive =>
    [.persistResearch
        { job with
          status := .retryWait
          nextRetryAtMs := some (attempt.now + 5000)
          error := some ⟨"research_poll_window_elapsed",
            "The accepted check is still running. Obelus will resume polling it.", true⟩ } none,
      .loadCanonical,
      .dispatch (.claimStatusChanged claimId
        (if attempt.stage = .deep then .preliminary else .queued))]
  | .failed error cancelled =>
    let failure := researchFailureDisposition error attempt.attemptCount cancelled attempt.now
    [.persistResearch
        { job with
          status := failure.status
          nextRetryAtMs := failure.nextRetryAtMs
          completedAtMs := failure.completedAtMs
          error := some failure.error } none,
      .loadCanonical,
      .dispatch (.claimStatusChanged claimId
        (if attempt.stage = .deep then .preliminary
        else if failure.status = .retryWait then .queued else .failed))]

def effects (claimId versionId : String) (attempt : ResearchAttempt) : List ResearchEffect :=
  [.dispatch (.claimStatusChanged claimId
      (if attempt.stage = .preliminary then .quickRunning else .deepRunning)),
    .persistResearch (attempt.pendingJob versionId) none] ++
    attempt.submitted.toList.map (fun submitted => .persistResearch
      { attempt.pendingJob versionId with
        gatewayJobId := some submitted.1
        status := submitted.2 } none) ++
    attempt.outcomeEffects claimId versionId

/-- The outcome is complete, or one of quick research that was not cancelled. -/
def settlesBoth (attempt : ResearchAttempt) : Prop :=
  match attempt.outcome with
  | .complete _ => True
  | .stillActive => attempt.stage = .preliminary
  | .failed _ cancelled => attempt.stage = .preliminary ∧ cancelled = false

end ResearchAttempt

structure ResearchView where
  claims : List LiveClaim
  db : ResearchDb

/-- An effect whose request to the store succeeds. -/
def perform (host : ResearchHost) (meetingId : String) (now : Int) (view : ResearchView) :
    ResearchEffect → Option ResearchView
  | .persistResearch job assessment =>
    let (result, db) := applyResearch host now { meetingId, job, assessment } view.db
    if result = .ok ⟨⟩ then some { view with db } else none
  | .loadCanonical => some { view with claims := loadClaims meetingId view.db.claims }
  | .dispatch action => some { view with claims := claimReducer view.claims action }

def runResearchStage (host : ResearchHost) (meetingId claimId versionId : String)
    (view : ResearchView) (attempt : ResearchAttempt) : Option ResearchView :=
  (attempt.effects claimId versionId).foldlM (perform host meetingId attempt.now) view

/-- The status of the claim in the reducer. -/
def ResearchView.shown (view : ResearchView) (claimId : String) : Option MeetingClaimStatus :=
  (lookup LiveClaim.id view.claims claimId).map LiveClaim.status

/-- Its status after reloading the meeting. -/
def ResearchView.stored (view : ResearchView) (claimId : String) : Option MeetingClaimStatus :=
  (lookup ClaimRow.id view.db.claims.claims claimId).map ClaimRow.status

/-- The claim is one of the meeting, and has the version. -/
structure ClaimTables.Tracks (meetingId claimId versionId : String) (tables : ClaimTables) :
    Prop where
  meeting : (lookup ClaimRow.id tables.claims claimId).map ClaimRow.meetingId = some meetingId
  version : (lookup ClaimVersionRow.id tables.versions versionId).map ClaimVersionRow.claimId =
    some claimId

/-- The claim is shown and stored. -/
def ResearchView.Tracks (meetingId claimId versionId : String) (view : ResearchView) : Prop :=
  (view.shown claimId).isSome ∧ view.db.claims.Tracks meetingId claimId versionId

variable {host : ResearchHost} {meetingId claimId versionId : String} {now : Int}
  {view next : ResearchView} {tables : ClaimTables} {attempt : ResearchAttempt}

/-- Updates for the version keep the claim, and leave it with the status of the last one. -/
theorem ClaimTables.Tracks.foldl_moved (tracks : tables.Tracks meetingId claimId versionId)
    (now : Int) (updates : List StatusUpdate) (last : StatusUpdate)
    (addressed : ∀ update ∈ updates ++ [last], update.claimVersionId = versionId) :
    ((updates ++ [last]).foldl (ClaimTables.moved now meetingId) tables).Tracks meetingId claimId
        versionId ∧
      (lookup ClaimRow.id ((updates ++ [last]).foldl (ClaimTables.moved now meetingId)
        tables).claims claimId).map ClaimRow.status = some last.status := by
  constructor
  · generalize updates ++ [last] = all
    induction all generalizing tables with
    | nil => exact tracks
    | cons update rest ih =>
      apply ih
      refine ⟨?_, tracks.version⟩
      have moved := @lookup_updateWhere ClaimRow String
        (fun claim => update.addresses tables meetingId claim)
        (fun claim => { claim with status := update.status, updatedAtMs := now })
        tables.claims _ ClaimRow.id (fun _ => rfl) claimId
      rw [ClaimTables.moved, moved, Option.map_map, ← tracks.meeting]
      refine Option.map_congr fun claim _ => ?_
      rw [Function.comp_apply]
      split <;> rfl
  · obtain ⟨claim, found, sameMeeting⟩ := Option.map_eq_some_iff.mp tracks.meeting
    rw [status_lookup_foldl_moved, found, Option.map_some, overwritten_append, overwritten_cons,
      if_pos]
    · rfl
    · rw [StatusUpdate.addresses, addressed last (by simp), tracks.version,
        (lookup_eq_some found).2]
      simpa using sameMeeting

section

variable (tracks : view.Tracks meetingId claimId versionId)
include tracks

/-- A request about the version that succeeds. -/
theorem perform_persistResearch {job : MeetingResearchJobUpsertDto}
    {assessment : Option MeetingAssessmentApplyDto} (isVersion : job.claimVersionId = versionId)
    (areVersion : ∀ stored ∈ assessment, stored.claimVersionId = versionId)
    (performed : perform host meetingId now view (.persistResearch job assessment) = some next) :
    next.Tracks meetingId claimId versionId ∧
      next.stored claimId = some (assessment.elim (claimStatusForResearchJob job.stage job.status)
        fun stored => claimStatusForAssessment stored.stage stored.status) := by
  simp only [perform, Option.ite_none_right_eq_some, Option.some.injEq] at performed
  obtain ⟨accepted, rfl⟩ := performed
  have claims := claims_applyResearch accepted
  cases assessment with
  | none =>
    obtain ⟨kept, status⟩ := tracks.2.foldl_moved now [] job.statusUpdate
      (forall_mem_singleton.mpr isVersion)
    exact ⟨⟨tracks.1, claims ▸ kept⟩, (congrArg _ (congrArg _ (congrArg _ claims))).trans status⟩
  | some stored =>
    obtain ⟨kept, status⟩ := tracks.2.foldl_moved now [job.statusUpdate]
      stored.statusUpdate (by simpa using ⟨isVersion, areVersion stored rfl⟩)
    exact ⟨⟨tracks.1, claims ▸ kept⟩, (congrArg _ (congrArg _ (congrArg _ claims))).trans status⟩

/-- A change of the status is shown. -/
theorem ResearchView.Tracks.dispatch {action : ClaimAction} {change : LiveClaim → LiveClaim}
    {status : MeetingClaimStatus}
    (performed : perform host meetingId now view (.dispatch action) = some next)
    (reduces : ∀ claims, claimReducer claims action =
      updateWhere (fun claim => claim.id = claimId) change claims)
    (kept : ∀ claim, (change claim).id = claim.id)
    (changed : ∀ claim, (change claim).status = status) :
    next.Tracks meetingId claimId versionId ∧ next.shown claimId = some status ∧
      next.stored claimId = view.stored claimId := by
  obtain ⟨_, found⟩ := Option.isSome_iff_exists.mp tracks.1
  obtain ⟨claim, found, -⟩ := Option.map_eq_some_iff.mp found
  cases performed
  rw [reduces]
  suffices shown : ResearchView.shown ⟨_, view.db⟩ claimId = some status from
    ⟨⟨Option.isSome_iff_exists.mpr ⟨status, shown⟩, tracks.2⟩, shown, rfl⟩
  rw [ResearchView.shown, lookup_updateWhere kept, found, Option.map_some, Option.map_some,
    if_pos (by simpa using (lookup_eq_some found).2), changed]

/-- The claim is shown after the meeting is loaded. -/
theorem ResearchView.Tracks.loadCanonical : ResearchView.Tracks meetingId claimId versionId
      { view with claims := loadClaims meetingId view.db.claims } := by
  obtain ⟨claim, found, sameMeeting⟩ := Option.map_eq_some_iff.mp tracks.2.meeting
  obtain ⟨member, sameId⟩ := lookup_eq_some found
  have loaded : (⟨claim.id, claim.status⟩ : LiveClaim) ∈ loadClaims meetingId view.db.claims :=
    mem_map_of_mem (mem_filter.mpr ⟨member, by simpa using sameMeeting⟩)
  obtain ⟨shown, isShown⟩ : ∃ shown, lookup LiveClaim.id (loadClaims meetingId view.db.claims)
      claim.id = some shown := exists_lookup_of_mem loaded
  refine ⟨?_, tracks.2⟩
  rw [ResearchView.shown, ← sameId, isShown]
  rfl

/-- A stage that failed or is still active. -/
theorem foldlM_unfinished {job : MeetingResearchJobUpsertDto} {status : MeetingClaimStatus}
    (isVersion : job.claimVersionId = versionId)
    (performed : [.persistResearch job none, .loadCanonical,
      .dispatch (.claimStatusChanged claimId status)].foldlM (perform host meetingId now) view =
        some next) : next.Tracks meetingId claimId versionId ∧ next.shown claimId = some status ∧
      next.stored claimId = some (claimStatusForResearchJob job.stage job.status) := by
  simp only [foldlM_cons, Option.bind_eq_bind, Option.bind_eq_some_iff] at performed
  obtain ⟨persisted, isPersisted, _, ⟨⟩, _, dispatched, ⟨⟩⟩ := performed
  obtain ⟨kept, stored⟩ := perform_persistResearch tracks isVersion (by simp) isPersisted
  obtain ⟨keptNext, shown, same⟩ := kept.loadCanonical.dispatch dispatched (fun _ => rfl)
    (fun _ => rfl) fun _ => rfl
  exact ⟨keptNext, shown, same.trans stored⟩

end

theorem researchFailureDisposition_status (error : MeetingTypedErrorDto) (attemptCount : UInt32)
    (cancelled : Bool) (now : Int) :
    ∃ retryable : Bool, (researchFailureDisposition error attemptCount cancelled now).status =
      if cancelled then .cancelled else if retryable then .retryWait else .failed := by
  refine ⟨error.retryable && attemptCount.toNat < maxAutomaticResearchAttempts, ?_⟩
  unfold researchFailureDisposition
  split <;> rfl

theorem runResearchStage_iff (tracks : view.Tracks meetingId claimId versionId)
    (performed : runResearchStage host meetingId claimId versionId view attempt = some next) :
    next.Tracks meetingId claimId versionId ∧
      (next.shown claimId = next.stored claimId ↔ attempt.settlesBoth) := by
  simp only [runResearchStage, ResearchAttempt.effects, foldlM_append, foldlM_cons,
    Option.bind_eq_bind, Option.bind_eq_some_iff] at performed
  obtain ⟨submitted, ⟨pending, ⟨running, dispatched, _, isPending, ⟨⟩⟩, accepted⟩, ended⟩ :=
    performed
  have tracksRunning := (tracks.dispatch dispatched (fun _ => rfl) (fun _ => rfl) fun _ => rfl).1
  have tracksPending := (perform_persistResearch tracksRunning rfl (by simp) isPending).1
  have tracksSubmitted : submitted.Tracks meetingId claimId versionId := by
    cases isSubmitted : attempt.submitted with
    | none =>
      rw [isSubmitted] at accepted
      cases accepted
      exact tracksPending
    | some job =>
      rw [isSubmitted] at accepted
      obtain ⟨_, persisted, ⟨⟩⟩ := Option.bind_eq_some_iff.mp accepted
      exact (perform_persistResearch tracksPending (by rfl) (by simp) persisted).1
  unfold ResearchAttempt.outcomeEffects at ended
  unfold ResearchAttempt.settlesBoth
  cases isOutcome : attempt.outcome with
  | complete assessment =>
    simp only [isOutcome, foldlM_cons, Option.bind_eq_bind, Option.bind_eq_some_iff] at ended
    obtain ⟨persisted, isPersisted, _, dispatched, ⟨⟩⟩ := ended
    obtain ⟨kept, stored⟩ := perform_persistResearch tracksSubmitted (by rfl) (by simp) isPersisted
    obtain ⟨keptNext, shown, same⟩ := kept.dispatch dispatched (fun _ => rfl) (fun _ => rfl)
      fun _ => rfl
    refine ⟨keptNext, ?_⟩
    rw [shown, same, stored]
    cases assessment.stage <;> simp [claimStatusForAssessment, completedClaimStatus]
  | stillActive =>
    simp only [isOutcome] at ended
    obtain ⟨kept, shown, stored⟩ := foldlM_unfinished tracksSubmitted (by rfl) ended
    refine ⟨kept, ?_⟩
    rw [shown, stored]
    cases attempt.stage <;> simp [claimStatusForResearchJob]
  | failed error cancelled =>
    simp only [isOutcome] at ended
    obtain ⟨kept, shown, stored⟩ := foldlM_unfinished tracksSubmitted (by rfl) ended
    refine ⟨kept, ?_⟩
    obtain ⟨retryable, status⟩ := researchFailureDisposition_status error attempt.attemptCount
      cancelled attempt.now
    rw [shown, stored]
    simp only [status]
    cases attempt.stage <;> cases cancelled <;> cases retryable <;>
      simp [claimStatusForResearchJob]

/-- After every sequence of outcomes the reducer and the store agree on the claim exactly when
the last outcome was complete, or one of quick research that was not cancelled. -/
theorem shown_eq_stored_iff (host : ResearchHost) {meetingId claimId versionId : String}
    {view final : ResearchView} (tracks : view.Tracks meetingId claimId versionId)
    (attempts : List ResearchAttempt) (last : ResearchAttempt)
    (performed : (attempts ++ [last]).foldlM
      (runResearchStage host meetingId claimId versionId) view = some final) :
    final.shown claimId = final.stored claimId ↔ last.settlesBoth := by
  induction attempts generalizing view with
  | nil =>
    obtain ⟨_, performed, ⟨⟩⟩ := Option.bind_eq_some_iff.mp performed
    exact (runResearchStage_iff tracks performed).2
  | cons attempt rest ih =>
    obtain ⟨next, first, others⟩ := Option.bind_eq_some_iff.mp performed
    exact ih (runResearchStage_iff tracks first).1 others

/-- The recorded claim, before research of its first version. -/
def recordedView : ResearchView where
  claims := [⟨recordedClaimId, .preliminary⟩]
  db := recordedRefinementDb.toResearchDb

/-- Research that ends with an error that is not retryable. -/
def recordedFailure (stage : MeetingAssessmentStage) : ResearchAttempt where
  jobId := "research-3"
  stage
  idempotencyKey := "research-3"
  attemptCount := 1
  pollJobId := none
  startedAtMs := 30
  submitted := some ("job-3", .running)
  outcome := .failed ⟨"research_failed", "Research did not return a valid packet.", false⟩ false
  now := 40

/-- A finding of deep research with one source. -/
def recordedAssessment : MeetingAssessmentApplyDto where
  id := "assessment-1"
  claimVersionId := "version-1"
  stage := .deep
  attemptNumber := 1
  status := .complete
  supersedesId := none
  verdict := .supported
  confidence := .high
  conclusion := [⟨"Scattered light is blue.", ["source-1"]⟩]
  support := []
  contradiction := []
  caveats := []
  limitations := []
  modelProvider := "test-provider"
  model := "test-model"
  modelVersion := none
  usage := none
  latencyMs := none
  startedAtMs := 30
  completedAtMs := 40
  error := none
  setCurrent := true
  sources :=
    [{ id := "source-1", citationKey := "source-1", url := "https://example.org/sky"
       canonicalUrl := "https://example.org/sky", publisher := "Example", title := "The sky"
       publicationDate := none, accessedAtMs := 35, evidenceExcerpt := "Blue light scatters."
       qualityScore := none, qualityRationale := "A primary source." }]

def recordedCompletion : ResearchAttempt :=
  { recordedFailure .deep with
    jobId := "research-4"
    idempotencyKey := "research-4"
    outcome := .complete recordedAssessment }

def runRecorded (attempts : List ResearchAttempt) : Option ResearchView :=
  attempts.foldlM (runResearchStage recordedResearchHost recordedMeetingId recordedClaimId
    "version-1") recordedView

/-- Quick research fails, and deep research is complete. -/
theorem shown_eq_stored_recordedCompletion :
    ∃ final, runRecorded [recordedFailure .preliminary, recordedCompletion] = some final ∧
      final.stored recordedClaimId = some .complete ∧
      (final.shown recordedClaimId = final.stored recordedClaimId ↔
        recordedCompletion.settlesBoth) := by
  obtain ⟨final, performed, complete⟩ :
      ∃ final ∈ runRecorded [recordedFailure .preliminary, recordedCompletion],
        final.stored recordedClaimId = some .complete := by decide +kernel
  exact ⟨final, performed, complete, shown_eq_stored_iff recordedResearchHost
    ⟨by decide +kernel, by decide +kernel, by decide +kernel⟩ [recordedFailure .preliminary] _
      performed⟩

/-- Deep research that failed shows a preliminary claim, which is stored as failed. -/
theorem shown_ne_stored_recordedFailure : (runRecorded [recordedFailure .deep]).map (fun final =>
      (final.shown recordedClaimId, final.stored recordedClaimId)) =
        some (some .preliminary, some .failed) := by
  decide +kernel

end Obelus.Meetings
