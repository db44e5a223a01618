import Obelus.Live.FactCheck.Jobs

/-!
# Releasing a meeting

The fact-check service with the jobs, the claim detections and the persistence of one meeting,
which may be released at any time.  The file operations of the persistence queue, the reads of
jobs and the removal of the directory end in tasks of their own, which begin when no call, write
or release can go on.  What the queues, the model and the other meetings delay may go on at any
time.  An abort makes an answer come as an error.  Assessments have contents of a type `ρ`, and
detections are values of a type `δ`.
-/

namespace Obelus.Live.FactCheck

open Obelus.Transition

variable {ρ δ : Type}

/-! ## The persistence queue -/

/-- A file operation of `persistJob`.  The removal follows a check that finds the meeting
released. -/
inductive FileOperation
  | making
  | opening
  | writing
  | syncing
  | closing (failed : Bool)
  | renaming
  | unlinking (failed : Bool)
  | removing

/-- The writes of a meeting in their order: which of the settled ones succeeded, the one that
is under way, and how many wait for it. -/
structure MeetingPersistence where
  settled : List Bool := []
  current : Option FileOperation := none
  queued : Nat := 0

namespace MeetingPersistence

/-- The writes that have been asked for. -/
def asked (persistence : MeetingPersistence) : Nat :=
  persistence.settled.length +
    ((if persistence.current.isSome then 1 else 0) + persistence.queued)

/-- No write is under way or waits. -/
def isIdle (persistence : MeetingPersistence) : Bool :=
  persistence.current.isNone && persistence.queued = 0

/-- The next write can start. -/
def canStart (persistence : MeetingPersistence) : Bool :=
  persistence.current.isNone && persistence.queued ≠ 0

def settle (succeeded : Bool) (persistence : MeetingPersistence) : MeetingPersistence :=
  { persistence with settled := persistence.settled ++ [succeeded], current := none }

def goOn (operation : FileOperation) (persistence : MeetingPersistence) : MeetingPersistence :=
  { persistence with current := some operation }

/-- A write begins unless the meeting is released. -/
def start (released : Bool) (persistence : MeetingPersistence) : MeetingPersistence :=
  let persistence := { persistence with queued := persistence.queued - 1 }
  if released then persistence.settle true else persistence.goOn .making

/-- What follows a file operation. -/
def operated (released succeeded : Bool) (operation : FileOperation)
    (persistence : MeetingPersistence) : MeetingPersistence :=
  match operation, succeeded with
  | .making, true => if released then persistence.goOn .removing else persistence.goOn .opening
  | .making, false => persistence.settle false
  | .opening, true => persistence.goOn .writing
  | .opening, false => persistence.goOn (.unlinking true)
  | .writing, true => persistence.goOn .syncing
  | .writing, false => persistence.goOn (.closing true)
  | .syncing, true => persistence.goOn (.closing false)
  | .syncing, false => persistence.goOn (.closing true)
  | .closing false, true =>
    if released then persistence.goOn (.unlinking false) else persistence.goOn .renaming
  | .closing _, _ => persistence.goOn (.unlinking true)
  | .renaming, true => if released then persistence.goOn .removing else persistence.settle true
  | .renaming, false => persistence.goOn (.unlinking true)
  | .unlinking failed, _ => persistence.settle (!failed)
  | .removing, _ => persistence.settle succeeded

end MeetingPersistence

/-- Whether the directory is there after it was removed; what failed may have removed it. -/
def afterRemoval (succeeded left directory : Bool) : Bool :=
  if succeeded then false else directory && left

/-- Whether the directory is there after a file operation. -/
def FileOperation.leaves (succeeded left directory : Bool) : FileOperation → Bool
  | .making => if succeeded then true else directory || left
  | .removing => afterRemoval succeeded left directory
  | _ => directory

/-! ## Calls, runs, detections and releases -/

/-- `initialized` and how far its operation has come. -/
inductive Store
  | notCalled
  | initializing
  | settled (succeeded : Bool)
  deriving DecidableEq

inductive JobCall
  | submit (stage : FactCheckStage) (request : StoredFactCheckRequest)
  | poll (jobId : String)

/-- A call waits for the store, for the file of the job, for the lookup to return, for the new
job to be written, or for its own return.  No write is awaited when none was begun. -/
inductive JobCallPhase (ρ : Type)
  | initializing
  | reading
  | looked (found : Option Nat)
  | persisting (job : Nat) (write : Option Nat)
  | returning (response : GatewayJobResponse ρ)
  | ended

structure WaitingCall (ρ : Type) where
  call : JobCall
  phase : JobCallPhase ρ := .initializing

/-- A run waits in its queue, for a write of `updateJob`, for the support, for the evidence, for
the warm-up of the local model, or for an answer.  After it ended its id is given back. -/
inductive JobRunPhase (ρ : Type)
  | queued
  | marking (job : Nat) (next : StoredLocalFactCheckJob ρ) (write : Option Nat)
  | checking (job : Nat)
  | retrieving (job : Nat)
  | warming (job : Nat)
  | synthesizing (job : Nat)
  | attempting (job : Nat) (repair : Bool)
  | settling (job : Nat) (next : StoredLocalFactCheckJob ρ) (caught : Bool) (write : Option Nat)
  | ended
  | gone

structure JobRun (ρ : Type) where
  jobId : String
  phase : JobRunPhase ρ := .queued

inductive DetectionPhase (δ : Type)
  | queued
  | checking
  | answering
  | returning (response : δ)
  | ended

structure Detection (δ : Type) where
  idempotencyKey : String
  requestFingerprint : String
  phase : DetectionPhase δ := .queued

/-- A call of `releaseMeeting` waits for the store, for the writes that have been asked for, or
for the removal of the directory. -/
inductive ReleasePhase
  | initializing
  | awaiting (writes : Nat)
  | removing
  | resolved
  | rejected
  deriving DecidableEq

structure MeetingService (ρ δ : Type) where
  texts : FactCheckTexts
  mode : LiveFactCheckMode
  localJobId : String → String
  directory : Bool
  store : Store := .notCalled
  objects : List (String × StoredLocalFactCheckJob ρ) := []
  jobs : List (String × Nat) := []
  running : List String := []
  disposed : Bool := false
  released : Bool := false
  persistence : MeetingPersistence := {}
  calls : List (WaitingCall ρ) := []
  runs : List (JobRun ρ) := []
  detections : List (Detection δ) := []
  cached : List (String × String × δ) := []
  releases : List ReleasePhase := []

/-- What comes from the callers, what goes on in a microtask, the ends of file operations, and
what may go on at any time. -/
inductive MeetingAction (ρ δ : Type)
  | call (call : JobCall)
  | detectClaims (idempotencyKey requestFingerprint : String) (manual : Bool)
  | releaseMeeting
  | dispose
  | callContinues (call : Nat)
  | detectionReturns (detection : Nat)
  | releaseContinues (release : Nat)
  | writeStarts
  | updated (run : Nat) (thrown : Thrown)
  | initialized (succeeded : Bool)
  | read (call : Nat) (found : Option (StoredLocalFactCheckJob ρ))
  | operated (succeeded left : Bool)
  | removed (release : Nat) (succeeded left : Bool)
  | runStarts (run : Nat)
  | runGone (run : Nat)
  | supportChecked (run : Nat) (outcome : Except Thrown (Option (Option String)))
  | evidenceRetrieved (run : Nat) (outcome : Except Thrown Bool)
  | warmed (run : Nat)
  | synthesized (run : Nat) (outcome : Except Thrown (AssessmentResult ρ))
  | attempted (run : Nat) (outcome : Except Thrown (AssessmentResult ρ))
      (conservative : AssessmentResult ρ)
  | detectionStarts (detection : Nat)
  | detectionSupported (detection : Nat) (available : Bool)
  | detected (detection : Nat) (outcome : Except Thrown δ)
  | evicted (idempotencyKey : String)

/-- A returned job or detection, a request to the model, or the end of a release. -/
inductive MeetingEvent (ρ δ : Type)
  | jobReturned (response : GatewayJobResponse ρ)
  | detectionReturned (response : δ)
  | synthesisRequested (jobId : String)
  | detectionRequested (idempotencyKey : String)
  | released
  deriving DecidableEq

namespace MeetingService

/-! ## Waiting -/

/-- The write is over. -/
def isWritten (write : Option Nat) (service : MeetingService ρ δ) : Bool :=
  match write with
  | some write => write < service.persistence.settled.length
  | none => true

/-- Whether the write succeeded. -/
def succeeded (write : Option Nat) (service : MeetingService ρ δ) : Bool :=
  match write with
  | some write => service.persistence.settled.getD write false
  | none => true

def isInitialized (service : MeetingService ρ δ) : Bool :=
  match service.store with
  | .settled _ => true
  | _ => false

def callIsReady (service : MeetingService ρ δ) (waiting : WaitingCall ρ) : Bool :=
  match waiting.phase with
  | .initializing => service.isInitialized
  | .looked _ => true
  | .persisting _ write => service.isWritten write
  | .returning _ => true
  | _ => false

def runIsReady (service : MeetingService ρ δ) (run : JobRun ρ) : Bool :=
  match run.phase with
  | .marking _ _ write => service.isWritten write
  | .settling _ _ _ write => service.isWritten write
  | _ => false

def detectionIsReady (detection : Detection δ) : Bool :=
  match detection.phase with
  | .returning _ => true
  | _ => false

def releaseIsReady (service : MeetingService ρ δ) (release : ReleasePhase) : Bool :=
  match release with
  | .initializing => service.isInitialized
  | .awaiting writes => writes ≤ service.persistence.settled.length
  | _ => false

/-- No microtask is left. -/
def rests (service : MeetingService ρ δ) : Bool :=
  !service.persistence.canStart && service.calls.all (fun call => !service.callIsReady call) &&
    service.runs.all (fun run => !service.runIsReady run) &&
    service.detections.all (fun detection => !detectionIsReady detection) &&
    service.releases.all (fun release => !service.releaseIsReady release)

/-! ## Jobs -/

def withCall (call : Nat) (phase : JobCallPhase ρ) (service : MeetingService ρ δ) :
    MeetingService ρ δ :=
  { service with calls := service.calls.modify call fun waiting => { waiting with phase } }

def withRun (run : Nat) (phase : JobRunPhase ρ) (service : MeetingService ρ δ) :
    MeetingService ρ δ :=
  { service with runs := service.runs.modify run fun waiting => { waiting with phase } }

def withDetection (detection : Nat) (phase : DetectionPhase δ) (service : MeetingService ρ δ) :
    MeetingService ρ δ :=
  { service with
    detections := service.detections.modify detection fun waiting => { waiting with phase } }

def withRelease (release : Nat) (phase : ReleasePhase) (service : MeetingService ρ δ) :
    MeetingService ρ δ :=
  { service with releases := service.releases.set release phase }

def initializeStore (service : MeetingService ρ δ) : MeetingService ρ δ :=
  if service.store = .notCalled then { service with store := .initializing } else service

def object? (number : Nat) (service : MeetingService ρ δ) : Option (StoredLocalFactCheckJob ρ) :=
  service.objects[number]?.map Prod.snd

/-- A job goes into the map. -/
def setJob (jobId : String) (number : Nat) (service : MeetingService ρ δ) : MeetingService ρ δ :=
  { service with jobs := (jobId, number) :: service.jobs.filter fun entry => entry.1 ≠ jobId }

def deleteJob (jobId : String) (service : MeetingService ρ δ) : MeetingService ρ δ :=
  { service with jobs := service.jobs.filter fun entry => entry.1 ≠ jobId }

/-- A new object goes into the map. -/
def insert (jobId : String) (job : StoredLocalFactCheckJob ρ) (service : MeetingService ρ δ) :
    MeetingService ρ δ :=
  setJob jobId service.objects.length { service with objects := service.objects ++ [(jobId, job)] }

def enqueue (jobId : String) (service : MeetingService ρ δ) : MeetingService ρ δ :=
  if service.disposed || service.running.contains jobId || (service.jobs.lookup jobId).isNone ||
      service.released then service
  else
    { service with
      running := jobId :: service.running
      runs := service.runs ++ [{ jobId }] }

def enqueueIfRunnable (jobId : String) (job : StoredLocalFactCheckJob ρ)
    (service : MeetingService ρ δ) : MeetingService ρ δ :=
  if isRunnable job.status then service.enqueue jobId else service

/-- `persistJob` until it waits, with the write that it awaits. -/
def persistJob (service : MeetingService ρ δ) : MeetingService ρ δ × Option Nat :=
  if service.released then (service, none)
  else
    ({ service with
        persistence := { service.persistence with queued := service.persistence.queued + 1 } },
      some service.persistence.asked)

/-! ## Calls -/

def isLocalFactCheckJobId (jobId : String) : Bool :=
  let chars := jobId.toList
  chars.take 11 = "local-fact-".toList && chars.length = 51 &&
    (chars.drop 11).all fun c => c.isDigit || ('a' ≤ c && c ≤ 'f')

def jobIdOf (service : MeetingService ρ δ) : JobCall → String
  | .submit _ request => service.localJobId request.idempotencyKey
  | .poll jobId => jobId

/-- `getJob` until it waits. -/
def getJob (call : Nat) (jobId : String) (service : MeetingService ρ δ) : MeetingService ρ δ :=
  match service.jobs.lookup jobId with
  | some number => service.withCall call (.looked (some number))
  | none => service.withCall call .reading

/-- A call after the initialization of the store. -/
def callInitialized (call : Nat) (waiting : WaitingCall ρ) (succeeded : Bool)
    (service : MeetingService ρ δ) : MeetingService ρ δ :=
  if !succeeded || service.released then service.withCall call .ended
  else
    match waiting.call with
    | .submit _ _ => service.getJob call (service.jobIdOf waiting.call)
    | .poll jobId =>
      if isLocalFactCheckJobId jobId then service.getJob call jobId
      else service.withCall call .ended

/-- `getJob` after the read.  A file that is not there or that cannot be parsed gives no job. -/
def readJob (call : Nat) (waiting : WaitingCall ρ) (found : Option (StoredLocalFactCheckJob ρ))
    (service : MeetingService ρ δ) : MeetingService ρ δ :=
  match found with
  | some job =>
    if service.released then service.withCall call (.looked none)
    else
      (service.insert (service.jobIdOf waiting.call) job).withCall call
        (.looked (some service.objects.length))
  | none => service.withCall call (.looked none)

/-- `submitFactCheck` after `getJob`.  A call with other input than the job fails. -/
def submitLooked (call : Nat) (stage : FactCheckStage) (request : StoredFactCheckRequest)
    (found : Option Nat) (service : MeetingService ρ δ) : MeetingService ρ δ :=
  let jobId := service.localJobId request.idempotencyKey
  if service.released then service.withCall call .ended
  else
    match found.bind fun number => service.object? number with
    | some job =>
      if job.stage = stage ∧ job.request = request then
        (service.enqueueIfRunnable jobId job).withCall call (.returning (publicJob job))
      else service.withCall call .ended
    | none =>
      let persisted := (service.insert jobId { stage, request }).persistJob
      persisted.1.withCall call (.persisting service.objects.length persisted.2)

/-- `pollFactCheck` after `getJob`. -/
def pollLooked (call : Nat) (jobId : String) (found : Option Nat)
    (service : MeetingService ρ δ) : MeetingService ρ δ :=
  match found.bind fun number => service.object? number with
  | some job =>
    (service.enqueueIfRunnable jobId job).withCall call (.returning (publicJob job))
  | none => service.withCall call .ended

/-- `submitFactCheck` after the write of the new job. -/
def submitPersisted (call : Nat) (jobId : String) (number : Nat) (succeeded : Bool)
    (service : MeetingService ρ δ) : MeetingService ρ δ :=
  if service.released then (service.deleteJob jobId).withCall call .ended
  else if !succeeded then service.withCall call .ended
  else
    match service.object? number with
    | some job => (service.enqueue jobId).withCall call (.returning (publicJob job))
    | none => service.withCall call .ended

def callContinues (call : Nat) (waiting : WaitingCall ρ) (service : MeetingService ρ δ) :
    Option (MeetingService ρ δ × List (MeetingEvent ρ δ)) :=
  match waiting.phase with
  | .initializing =>
    match service.store with
    | .settled succeeded => some (service.callInitialized call waiting succeeded, [])
    | _ => none
  | .looked found =>
    match waiting.call with
    | .submit stage request => some (service.submitLooked call stage request found, [])
    | .poll jobId => some (service.pollLooked call jobId found, [])
  | .persisting number write =>
    if service.isWritten write then
      some (service.submitPersisted call (service.jobIdOf waiting.call) number
        (service.succeeded write), [])
    else none
  | .returning response => some (service.withCall call .ended, [.jobReturned response])
  | _ => none

/-! ## Runs -/

/-- `updateJob` until it waits.  A run of a released meeting ends behind it. -/
def update (run number : Nat) (patch : JobPatch ρ) (caught : Bool)
    (service : MeetingService ρ δ) : MeetingService ρ δ :=
  match service.object? number with
  | some job =>
    if service.released then service.withRun run .ended
    else
      let persisted := service.persistJob
      persisted.1.withRun run (.settling number (job.patch patch) caught persisted.2)
  | none => service.withRun run .ended

/-- The first check of `runJob`, and its first `updateJob` until it waits. -/
def runStarts (run : Nat) (jobId : String) (service : MeetingService ρ δ) : MeetingService ρ δ :=
  match (service.jobs.lookup jobId).bind fun number =>
      (service.object? number).map (Prod.mk number) with
  | some (number, job) =>
    if !isRunnable job.status || service.released then service.withRun run .ended
    else
      let persisted := service.persistJob
      persisted.1.withRun run (.marking number (job.patch runningPatch) persisted.2)
  | none => service.withRun run .ended

/-- `updateJob` after the write. -/
def assign (jobId : String) (number : Nat) (next : StoredLocalFactCheckJob ρ)
    (service : MeetingService ρ δ) : MeetingService ρ δ :=
  setJob jobId number { service with objects := service.objects.set number (jobId, next) }

/-- The `catch` of `runJob`. -/
def catchError (run number : Nat) (thrown : Thrown) (service : MeetingService ρ δ) :
    MeetingService ρ δ :=
  if service.released then service.withRun run .ended
  else service.update run number (caughtPatch service.disposed thrown) true

/-- A run after a write of `updateJob`, which throws when it failed. -/
def updated (run : Nat) (waiting : JobRun ρ) (thrown : Thrown) (service : MeetingService ρ δ) :
    Option (MeetingService ρ δ) :=
  match waiting.phase with
  | .marking number next write =>
    if !service.isWritten write then none
    else if !service.succeeded write || service.released then some (service.withRun run .ended)
    else some ((service.assign waiting.jobId number next).withRun run (.checking number))
  | .settling number next caught write =>
    if !service.isWritten write then none
    else if !service.succeeded write then
      some (if caught then service.withRun run .ended else service.catchError run number thrown)
    else if service.released then some (service.withRun run .ended)
    else some ((service.assign waiting.jobId number next).withRun run .ended)
  | _ => none

/-- No reason, or the reason why the service is not available. -/
def supportChecked (run : Nat) (waiting : JobRun ρ)
    (outcome : Except Thrown (Option (Option String))) (service : MeetingService ρ δ) :
    Option (MeetingService ρ δ) :=
  match waiting.phase with
  | .checking number =>
    some (match outcome with
      | .error thrown => service.catchError run number thrown
      | .ok reason? =>
        if service.released then service.withRun run .ended
        else
          match reason? with
          | none => service.withRun run (.retrieving number)
          | some reason =>
            service.update run number (unsupportedPatch service.texts service.mode reason)
              false)
  | _ => none

/-- The run after the retrieval.  The local model is asked only after its warm-up. -/
def evidenceRetrieved (run : Nat) (waiting : JobRun ρ) (outcome : Except Thrown Bool)
    (service : MeetingService ρ δ) : Option (MeetingService ρ δ × List (MeetingEvent ρ δ)) :=
  match waiting.phase with
  | .retrieving number =>
    some (match outcome with
      | .error thrown => (service.catchError run number thrown, [])
      | .ok found =>
        if service.released then (service.withRun run .ended, [])
        else if !found then
          (service.update run number (noEvidencePatch service.texts service.mode) false, [])
        else
          match service.mode with
          | .subscriptionWeb =>
            (service.withRun run (.synthesizing number),
              [.synthesisRequested waiting.jobId])
          | .localWikimedia => (service.withRun run (.warming number), []))
  | _ => none

/-- The first attempt of the local model. -/
def warmed (run : Nat) (waiting : JobRun ρ) (service : MeetingService ρ δ) :
    Option (MeetingService ρ δ × List (MeetingEvent ρ δ)) :=
  match waiting.phase with
  | .warming number =>
    some (service.withRun run (.attempting number false), [.synthesisRequested waiting.jobId])
  | _ => none

def complete (run number : Nat) (result : AssessmentResult ρ) (service : MeetingService ρ δ) :
    MeetingService ρ δ :=
  if service.released then service.withRun run .ended
  else service.update run number (completePatch result) false

def synthesized (run : Nat) (waiting : JobRun ρ) (outcome : Except Thrown (AssessmentResult ρ))
    (service : MeetingService ρ δ) : Option (MeetingService ρ δ) :=
  match waiting.phase with
  | .synthesizing number =>
    some (match outcome with
      | .error thrown => service.catchError run number thrown
      | .ok result => service.complete run number result)
  | _ => none

def isInvalidModelResponse : Thrown → Bool
  | some error => error.code = "invalid_local_research_response"
  | none => false

/-- The answer to an attempt of the local model.  An invalid one is repaired once, and then the
conservative assessment is taken. -/
def attempted (run : Nat) (waiting : JobRun ρ) (outcome : Except Thrown (AssessmentResult ρ))
    (conservative : AssessmentResult ρ) (service : MeetingService ρ δ) :
    Option (MeetingService ρ δ × List (MeetingEvent ρ δ)) :=
  match waiting.phase with
  | .attempting number repair =>
    some (match outcome with
      | .ok result => (service.complete run number result, [])
      | .error thrown =>
        if !isInvalidModelResponse thrown then (service.catchError run number thrown, [])
        else if repair then (service.complete run number conservative, [])
        else
          (service.withRun run (.attempting number true),
            [.synthesisRequested waiting.jobId]))
  | _ => none

/-- The id of a run that ended is given back. -/
def runGone (run : Nat) (waiting : JobRun ρ) (service : MeetingService ρ δ) :
    Option (MeetingService ρ δ) :=
  match waiting.phase with
  | .ended =>
    some ({ service with running := service.running.erase waiting.jobId }.withRun run .gone)
  | _ => none

/-! ## Detections -/

/-- `detectClaims` until it waits in its queue. -/
def detectClaims (idempotencyKey requestFingerprint : String) (manual : Bool)
    (service : MeetingService ρ δ) : MeetingService ρ δ :=
  if service.mode ≠ .subscriptionWeb || manual then service
  else
    { service with
      detections := service.detections ++ [{ idempotencyKey, requestFingerprint }] }

/-- `runClaimDetection` until it waits or returns. -/
def detectionStarts (number : Nat) (detection : Detection δ) (service : MeetingService ρ δ) :
    Option (MeetingService ρ δ) :=
  match detection.phase with
  | .queued =>
    some (if service.disposed || service.released then service.withDetection number .ended
      else
        match service.cached.lookup detection.idempotencyKey with
        | some (fingerprint, response) =>
          if fingerprint ≠ detection.requestFingerprint then
            service.withDetection number .ended
          else service.withDetection number (.returning response)
        | none => service.withDetection number .checking)
  | _ => none

def detectionSupported (number : Nat) (detection : Detection δ) (available : Bool)
    (service : MeetingService ρ δ) :
    Option (MeetingService ρ δ × List (MeetingEvent ρ δ)) :=
  match detection.phase with
  | .checking =>
    some (if service.disposed || service.released || !available then
        (service.withDetection number .ended, [])
      else
        (service.withDetection number .answering,
          [.detectionRequested detection.idempotencyKey]))
  | _ => none

def detected (number : Nat) (detection : Detection δ) (outcome : Except Thrown δ)
    (service : MeetingService ρ δ) : Option (MeetingService ρ δ) :=
  match detection.phase with
  | .answering =>
    some (match outcome with
      | .error _ => service.withDetection number .ended
      | .ok response =>
        if service.disposed || service.released then service.withDetection number .ended
        else
          { service with
            cached :=
              (detection.idempotencyKey, detection.requestFingerprint, response) ::
                service.cached.filter fun entry => entry.1 ≠ detection.idempotencyKey
          }.withDetection number (.returning response))
  | _ => none

def detectionReturns (number : Nat) (detection : Detection δ) (service : MeetingService ρ δ) :
    Option (MeetingService ρ δ × List (MeetingEvent ρ δ)) :=
  match detection.phase with
  | .returning response => some (service.withDetection number .ended, [.detectionReturned response])
  | _ => none

/-! ## Releases -/

/-- `releaseMeeting` until it waits. -/
def releaseMeeting (service : MeetingService ρ δ) : MeetingService ρ δ :=
  initializeStore
    { service with
      released := true
      cached := []
      releases := service.releases ++ [.initializing] }

/-- All jobs leave the map, and the writes that have been asked for are awaited. -/
def releaseContinues (release : Nat) (phase : ReleasePhase) (service : MeetingService ρ δ) :
    Option (MeetingService ρ δ) :=
  match phase with
  | .initializing =>
    match service.store with
    | .settled true =>
      some ({ service with jobs := [] }.withRelease release
        (.awaiting service.persistence.asked))
    | .settled false => some (service.withRelease release .rejected)
    | _ => none
  | .awaiting writes =>
    if writes ≤ service.persistence.settled.length then
      some (service.withRelease release .removing)
    else none
  | _ => none

def removed (release : Nat) (phase : ReleasePhase) (succeeded left : Bool)
    (service : MeetingService ρ δ) : Option (MeetingService ρ δ × List (MeetingEvent ρ δ)) :=
  match phase with
  | .removing =>
    let removed := { service with directory := afterRemoval succeeded left service.directory }
    some (if succeeded then (removed.withRelease release .resolved, [.released])
      else (removed.withRelease release .rejected, []))
  | _ => none

/-! ## The machine -/

def silent (next : Option (MeetingService ρ δ)) :
    Option (MeetingService ρ δ × List (MeetingEvent ρ δ)) :=
  next.map fun service => (service, [])

def step : Machine (MeetingService ρ δ) (MeetingAction ρ δ) (MeetingEvent ρ δ) :=
  fun service action =>
    match action with
    | .call call => some (initializeStore { service with calls := service.calls ++ [{ call }] }, [])
    | .detectClaims key fingerprint manual => some (service.detectClaims key fingerprint manual, [])
    | .releaseMeeting => some (service.releaseMeeting, [])
    | .dispose => some ({ service with disposed := true, cached := [] }, [])
    | .callContinues call => service.calls[call]?.bind (service.callContinues call)
    | .detectionReturns number =>
      service.detections[number]?.bind fun detection => service.detectionReturns number detection
    | .releaseContinues release =>
      silent (service.releases[release]?.bind fun phase => service.releaseContinues release phase)
    | .writeStarts =>
      if service.persistence.canStart then
        some ({ service with persistence := service.persistence.start service.released }, [])
      else none
    | .updated run thrown =>
      silent (service.runs[run]?.bind fun waiting => service.updated run waiting thrown)
    | .initialized succeeded =>
      if service.rests ∧ service.store = .initializing then
        some ({ service with store := .settled succeeded }, [])
      else none
    | .read call found =>
      match service.calls[call]? with
      | some ⟨jobCall, .reading⟩ =>
        if service.rests then some (service.readJob call ⟨jobCall, .reading⟩ found, []) else none
      | _ => none
    | .operated succeeded left =>
      match service.persistence.current with
      | some operation =>
        if service.rests then
          some ({ service with
            persistence :=
              service.persistence.operated service.released succeeded operation
            directory := operation.leaves succeeded left service.directory }, [])
        else none
      | none => none
    | .removed release succeeded left =>
      if service.rests then
        service.releases[release]?.bind fun phase => service.removed release phase succeeded left
      else none
    | .runStarts run =>
      match service.runs[run]? with
      | some ⟨jobId, .queued⟩ => some (service.runStarts run jobId, [])
      | _ => none
    | .runGone run => silent (service.runs[run]?.bind fun waiting => service.runGone run waiting)
    | .supportChecked run outcome =>
      silent (service.runs[run]?.bind fun waiting => service.supportChecked run waiting outcome)
    | .evidenceRetrieved run outcome =>
      service.runs[run]?.bind fun waiting => service.evidenceRetrieved run waiting outcome
    | .warmed run => service.runs[run]?.bind fun waiting => service.warmed run waiting
    | .synthesized run outcome =>
      silent (service.runs[run]?.bind fun waiting => service.synthesized run waiting outcome)
    | .attempted run outcome conservative =>
      service.runs[run]?.bind fun waiting => service.attempted run waiting outcome conservative
    | .detectionStarts number =>
      silent (service.detections[number]?.bind fun detection =>
        service.detectionStarts number detection)
    | .detectionSupported number available =>
      service.detections[number]?.bind fun detection =>
        service.detectionSupported number detection available
    | .detected number outcome =>
      silent (service.detections[number]?.bind fun detection =>
        service.detected number detection outcome)
    | .evicted key =>
      some ({ service with cached := service.cached.filter fun entry => entry.1 ≠ key }, [])

end MeetingService

/-! ## Erasing -/

def MeetingEvent.isReleased : MeetingEvent ρ δ → Bool
  | .released => true
  | _ => false

/-- Behind the end of a release the directory is gone, no call returns a job or a detection, and
nothing is asked of the model. -/
structure Erased (config : Config (MeetingService ρ δ) (MeetingEvent ρ δ)) : Prop where
  directory : (∃ event ∈ config.trace, event.isReleased = true) → config.state.directory = false
  silent : ∀ before event after, config.trace = before ++ event :: after →
    event.isReleased = true → ∀ later ∈ after, later.isReleased = true

/-- A release of the meeting has resolved. -/
def MeetingService.isErased (service : MeetingService ρ δ) : Bool :=
  service.releases.contains .resolved

/-- A run goes on from the warm-up of the local model, or from a first answer that is invalid, only
while no release has resolved. -/
def AsksInTime (service : MeetingService ρ δ) : MeetingAction ρ δ → Prop
  | .warmed run =>
    match service.runs[run]? with
    | some ⟨_, .warming _⟩ => service.isErased = false
    | _ => True
  | .attempted run (.error thrown) _ =>
    match service.runs[run]? with
    | some ⟨_, .attempting _ false⟩ =>
      MeetingService.isInvalidModelResponse thrown = true → service.isErased = false
    | _ => True
  | _ => True

def asksInTime : Guard (MeetingService ρ δ) (MeetingAction ρ δ) (MeetingEvent ρ δ) :=
  fun config action _ => AsksInTime config.state action

end Obelus.Live.FactCheck
