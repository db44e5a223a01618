import Obelus.Data.Text
import Obelus.Transition.Reaches

/-!
# Fact-check jobs

The job of one meeting and one idempotency key.  Calls look the job up in the map of the
service and then in its file; a run checks the support, retrieves evidence and has an
assessment made from it.  The map, the calls and the runs refer to job objects by their
number.  The jobs of other keys share only the work queues, which delay a run.  No meeting
is released.  The content of an assessment is a value of a type `ρ`.
-/

namespace Obelus.Live.FactCheck

open Obelus.Data Obelus.Transition
open CodeUnits (units)

variable {ρ : Type}

inductive FactCheckStage
  | quick
  | deep
  deriving DecidableEq

inductive GatewayJobStatus
  | pending
  | running
  | retryWait
  | complete
  | failed
  | cancelled
  deriving DecidableEq

def isRunnable : GatewayJobStatus → Bool
  | .pending => true
  | .running => true
  | .retryWait => true
  | _ => false

structure LiveCaptureError where
  code : String
  message : CodeUnits
  retryable : Bool
  deriving DecidableEq

inductive ClaimOrigin
  | automatic
  | manual
  deriving DecidableEq

structure StoredFactCheckRequest where
  meetingId : String
  claimId : String
  claimVersionId : String
  idempotencyKey : String
  exactQuote : String
  normalizedClaim : String
  origin : ClaimOrigin
  deriving DecidableEq

structure AssessmentProvenance where
  provider : String
  model : String
  isLocal : Bool
  deriving DecidableEq

structure AssessmentResult (ρ : Type) where
  provenance : AssessmentProvenance
  content : ρ
  deriving DecidableEq

structure StoredLocalFactCheckJob (ρ : Type) where
  stage : FactCheckStage
  request : StoredFactCheckRequest
  status : GatewayJobStatus := .pending
  result : Option (AssessmentResult ρ) := none
  error : Option LiveCaptureError := none

structure GatewayUsage where
  provider : String
  model : String
  provenance : String
  deriving DecidableEq

structure GatewayJobResponse (ρ : Type) where
  status : GatewayJobStatus
  result : Option (AssessmentResult ρ)
  error : Option LiveCaptureError
  usage : Option GatewayUsage
  deriving DecidableEq

def publicJob (job : StoredLocalFactCheckJob ρ) : GatewayJobResponse ρ where
  status := job.status
  result := job.result
  error := job.error
  usage :=
    if job.status = .complete then
      let provenance := job.result.map AssessmentResult.provenance
      some
        { provider := (provenance.map AssessmentProvenance.provider).getD "unknown"
          model := (provenance.map AssessmentProvenance.model).getD "unknown"
          provenance :=
            if (provenance.map AssessmentProvenance.isLocal).getD false then "local"
            else "subscription" }
    else none

/-- A patch of `updateJob`: what is not in it stays. -/
structure JobPatch (ρ : Type) where
  status : GatewayJobStatus
  result : Option (Option (AssessmentResult ρ)) := none
  error : Option (Option LiveCaptureError) := none

def StoredLocalFactCheckJob.patch (patch : JobPatch ρ) (job : StoredLocalFactCheckJob ρ) :
    StoredLocalFactCheckJob ρ :=
  { job with
    status := patch.status
    result := patch.result.getD job.result
    error := patch.error.getD job.error }

inductive LiveFactCheckMode
  | subscriptionWeb
  | localWikimedia
  deriving DecidableEq

/-- `LOCAL_FACT_CHECK_MODEL` and the evidence scopes. -/
structure FactCheckTexts where
  localModel : String
  subscriptionScope : String
  localScope : String

/-- What is thrown: an error with a code, or another value. -/
abbrev Thrown := Option LiveCaptureError

/-- The message of an error is cut after 1000 code units. -/
def normalizeLocalError : Thrown → LiveCaptureError
  | some error => { error with message := error.message.take 1000 }
  | none =>
    { code := "local_research_failed"
      message :=
        units "Fact-checking could not complete against the retrieved evidence inventory."
      retryable := true }

def runningPatch : JobPatch ρ :=
  { status := .running, error := some none }

def unsupportedPatch (texts : FactCheckTexts) (mode : LiveFactCheckMode)
    (reason : Option String) : JobPatch ρ where
  status := .failed
  error := some (some
    { code := "local_research_unavailable"
      message := units (reason.getD (match mode with
        | .subscriptionWeb => "Sign in to ChatGPT in Obelus before using live fact-checking."
        | .localWikimedia =>
          "Local fact-checking needs Ollama with " ++ texts.localModel ++ " installed."))
      retryable := mode ≠ .subscriptionWeb })

def noEvidencePatch (texts : FactCheckTexts) (mode : LiveFactCheckMode) : JobPatch ρ where
  status := .failed
  error := some (some
    { code := "local_evidence_unavailable"
      message := units ("No relevant evidence was found in the configured research scope. " ++
        match mode with
        | .subscriptionWeb => texts.subscriptionScope
        | .localWikimedia => texts.localScope)
      retryable := false })

def completePatch (result : AssessmentResult ρ) : JobPatch ρ :=
  { status := .complete, result := some (some result), error := some none }

/-- The patch of the `catch` of `runJob`. -/
def caughtPatch (disposed : Bool) (thrown : Thrown) : JobPatch ρ :=
  if disposed then
    { status := .retryWait
      result := some none
      error := some (some
        { code := "local_research_interrupted"
          message := units "Fact-checking was interrupted when Obelus closed and will resume."
          retryable := true }) }
  else
    { status := .failed
      result := some none
      error := some (some (normalizeLocalError thrown)) }

inductive FactCheckCall
  | submit (stage : FactCheckStage) (request : StoredFactCheckRequest)
  | poll

/-- A call waits for the store, for the file of the job, for the lookup to return, or for
the new job to be written. -/
inductive CallPhase
  | initializing
  | reading
  | looked (found : Option Nat)
  | persisting (job : Nat)
  | ended
  deriving DecidableEq

structure PendingCall where
  call : FactCheckCall
  phase : CallPhase

/-- A run waits in its queue, for `updateJob` to write the job as it will be, for the
support, for the evidence or for the assessment.  After it ended its id is released. -/
inductive RunPhase (ρ : Type)
  | queued
  | marking (job : Nat) (next : StoredLocalFactCheckJob ρ)
  | checking (job : Nat)
  | retrieving (job : Nat)
  | synthesizing (job : Nat)
  | settling (job : Nat) (next : StoredLocalFactCheckJob ρ) (caught : Bool)
  | ended
  | released

/-- The run is past its first check. -/
def RunPhase.isPastFirstCheck : RunPhase ρ → Bool
  | .queued => false
  | .ended => false
  | .released => false
  | _ => true

/-- `objects` are all job objects made so far, `job` is the one in the map, `running`
tells whether the id is in `runningJobs`. -/
structure LocalFactCheckService (ρ : Type) where
  texts : FactCheckTexts
  mode : LiveFactCheckMode
  objects : List (StoredLocalFactCheckJob ρ) := []
  job : Option Nat := none
  running : Bool := false
  disposed : Bool := false
  calls : List PendingCall := []
  runs : List (RunPhase ρ) := []

/-- A read gives the job of a file that is there and can be parsed. -/
inductive FactCheckAction (ρ : Type)
  | call (call : FactCheckCall)
  | initialized (call : Nat) (succeeded : Bool)
  | read (call : Nat) (found : Option (StoredLocalFactCheckJob ρ))
  | continues (call : Nat)
  | persisted (call : Nat) (succeeded : Bool)
  | starts (run : Nat)
  | updated (run : Nat) (outcome : Except Thrown Unit)
  | supportChecked (run : Nat) (outcome : Except Thrown (Option (Option String)))
  | evidenceRetrieved (run : Nat) (outcome : Except Thrown Bool)
  | synthesized (run : Nat) (outcome : Except Thrown (AssessmentResult ρ))
  | released (run : Nat)
  | dispose

inductive FactCheckEvent (ρ : Type)
  | submitted (stage : FactCheckStage) (request : StoredFactCheckRequest)
      (response : GatewayJobResponse ρ)
  | polled (response : GatewayJobResponse ρ)
  | synthesis (run : Nat)
  deriving DecidableEq

namespace LocalFactCheckService

def withPhase (call : Nat) (phase : CallPhase) (service : LocalFactCheckService ρ) :
    LocalFactCheckService ρ :=
  { service with
    calls := service.calls.modify call fun pending => { pending with phase } }

def withRun (run : Nat) (phase : RunPhase ρ) (service : LocalFactCheckService ρ) :
    LocalFactCheckService ρ :=
  { service with runs := service.runs.set run phase }

/-- A new object goes into the map. -/
def insert (job : StoredLocalFactCheckJob ρ) (service : LocalFactCheckService ρ) :
    LocalFactCheckService ρ :=
  { service with
    objects := service.objects ++ [job]
    job := some service.objects.length }

def enqueue (service : LocalFactCheckService ρ) : LocalFactCheckService ρ :=
  if service.disposed || service.running || service.job.isNone then service
  else { service with running := true, runs := service.runs ++ [.queued] }

def enqueueIfRunnable (job : StoredLocalFactCheckJob ρ) (service : LocalFactCheckService ρ) :
    LocalFactCheckService ρ :=
  if isRunnable job.status then service.enqueue else service

/-- The lookup of `getJob` in the map, or else the start of the read. -/
def lookup (call : Nat) (service : LocalFactCheckService ρ) : LocalFactCheckService ρ :=
  service.withPhase call (match service.job with
    | some job => .looked (some job)
    | none => .reading)

/-- `getJob` after the read. -/
def read (call : Nat) (found : Option (StoredLocalFactCheckJob ρ))
    (service : LocalFactCheckService ρ) : LocalFactCheckService ρ :=
  match found with
  | some job => (service.insert job).withPhase call (.looked (some service.objects.length))
  | none => service.withPhase call (.looked none)

/-- `submitFactCheck` after `getJob`.  A call with other input than the job fails. -/
def submitLooked (call : Nat) (stage : FactCheckStage) (request : StoredFactCheckRequest)
    (found : Option Nat) (service : LocalFactCheckService ρ) :
    LocalFactCheckService ρ × List (FactCheckEvent ρ) :=
  match found with
  | none =>
    ((service.insert { stage, request }).withPhase call (.persisting service.objects.length), [])
  | some number =>
    match service.objects[number]? with
    | some job =>
      if job.stage = stage ∧ job.request = request then
        ((service.enqueueIfRunnable job).withPhase call .ended,
          [.submitted stage request (publicJob job)])
      else (service.withPhase call .ended, [])
    | none => (service.withPhase call .ended, [])

/-- `pollFactCheck` after `getJob`. -/
def pollLooked (call : Nat) (found : Option Nat) (service : LocalFactCheckService ρ) :
    LocalFactCheckService ρ × List (FactCheckEvent ρ) :=
  match found.bind fun number => service.objects[number]? with
  | some job =>
    ((service.enqueueIfRunnable job).withPhase call .ended, [.polled (publicJob job)])
  | none => (service.withPhase call .ended, [])

/-- `submitFactCheck` after the new job was written. -/
def submitPersisted (call : Nat) (stage : FactCheckStage) (request : StoredFactCheckRequest)
    (number : Nat) (service : LocalFactCheckService ρ) :
    LocalFactCheckService ρ × List (FactCheckEvent ρ) :=
  match service.objects[number]? with
  | some job =>
    (service.enqueue.withPhase call .ended, [.submitted stage request (publicJob job)])
  | none => (service.withPhase call .ended, [])

/-- The first check of `runJob`. -/
def start (run : Nat) (service : LocalFactCheckService ρ) : LocalFactCheckService ρ :=
  match service.job.bind fun number => service.objects[number]?.map (Prod.mk number) with
  | some (number, job) =>
    if isRunnable job.status then service.withRun run (.marking number (job.patch runningPatch))
    else service.withRun run .ended
  | none => service.withRun run .ended

/-- `updateJob` up to the write. -/
def update (run number : Nat) (patch : JobPatch ρ) (caught : Bool)
    (service : LocalFactCheckService ρ) : LocalFactCheckService ρ :=
  match service.objects[number]? with
  | some job => service.withRun run (.settling number (job.patch patch) caught)
  | none => service.withRun run .ended

/-- `updateJob` after the write. -/
def assign (number : Nat) (next : StoredLocalFactCheckJob ρ) (service : LocalFactCheckService ρ) :
    LocalFactCheckService ρ :=
  { service with objects := service.objects.set number next, job := some number }

/-- The `catch` of `runJob`. -/
def catchError (run number : Nat) (thrown : Thrown) (service : LocalFactCheckService ρ) :
    LocalFactCheckService ρ :=
  service.update run number (caughtPatch service.disposed thrown) true

/-- A run after a write of `updateJob`. -/
def updated (run : Nat) (outcome : Except Thrown Unit) (service : LocalFactCheckService ρ) :
    Option (LocalFactCheckService ρ) :=
  match service.runs[run]?, outcome with
  | some (.marking number next), .ok () =>
    some ((service.assign number next).withRun run (.checking number))
  | some (.marking _ _), .error _ => some (service.withRun run .ended)
  | some (.settling number next _), .ok () =>
    some ((service.assign number next).withRun run .ended)
  | some (.settling number _ false), .error thrown => some (service.catchError run number thrown)
  | some (.settling _ _ true), .error _ => some (service.withRun run .ended)
  | _, _ => none

/-- No reason, or the reason why the service is not available. -/
def supportChecked (run : Nat) (outcome : Except Thrown (Option (Option String)))
    (service : LocalFactCheckService ρ) : Option (LocalFactCheckService ρ) :=
  match service.runs[run]? with
  | some (.checking number) =>
    some (match outcome with
      | .ok none => service.withRun run (.retrieving number)
      | .ok (some reason) =>
        service.update run number (unsupportedPatch service.texts service.mode reason) false
      | .error thrown => service.catchError run number thrown)
  | _ => none

/-- The synthesis starts when evidence was found. -/
def evidenceRetrieved (run : Nat) (outcome : Except Thrown Bool)
    (service : LocalFactCheckService ρ) :
    Option (LocalFactCheckService ρ × List (FactCheckEvent ρ)) :=
  match service.runs[run]? with
  | some (.retrieving number) =>
    some (match outcome with
      | .ok true => (service.withRun run (.synthesizing number), [.synthesis run])
      | .ok false =>
        (service.update run number (noEvidencePatch service.texts service.mode) false, [])
      | .error thrown => (service.catchError run number thrown, []))
  | _ => none

def synthesized (run : Nat) (outcome : Except Thrown (AssessmentResult ρ))
    (service : LocalFactCheckService ρ) : Option (LocalFactCheckService ρ) :=
  match service.runs[run]? with
  | some (.synthesizing number) =>
    some (match outcome with
      | .ok result => service.update run number (completePatch result) false
      | .error thrown => service.catchError run number thrown)
  | _ => none

/-- A call goes on after its lookup. -/
def continues (call : Nat) (service : LocalFactCheckService ρ) :
    Option (LocalFactCheckService ρ × List (FactCheckEvent ρ)) :=
  match service.calls[call]? with
  | some ⟨.submit stage request, .looked found⟩ =>
    some (service.submitLooked call stage request found)
  | some ⟨.poll, .looked found⟩ => some (service.pollLooked call found)
  | _ => none

/-- A submitted job was written, or could not be. -/
def persisted (call : Nat) (succeeded : Bool) (service : LocalFactCheckService ρ) :
    Option (LocalFactCheckService ρ × List (FactCheckEvent ρ)) :=
  match service.calls[call]? with
  | some ⟨.submit stage request, .persisting number⟩ =>
    some (if succeeded then service.submitPersisted call stage request number
      else (service.withPhase call .ended, []))
  | _ => none

def step : Machine (LocalFactCheckService ρ) (FactCheckAction ρ) (FactCheckEvent ρ)
  | service, .call call =>
    some ({ service with calls := service.calls ++ [⟨call, .initializing⟩] }, [])
  | service, .initialized call succeeded =>
    if (service.calls[call]?.map PendingCall.phase) = some .initializing then
      some (if succeeded then service.lookup call else service.withPhase call .ended, [])
    else none
  | service, .read call found =>
    if (service.calls[call]?.map PendingCall.phase) = some .reading then
      some (service.read call found, [])
    else none
  | service, .continues call => service.continues call
  | service, .persisted call succeeded => service.persisted call succeeded
  | service, .starts run =>
    match service.runs[run]? with
    | some .queued => some (service.start run, [])
    | _ => none
  | service, .updated run outcome =>
    (service.updated run outcome).map fun service => (service, [])
  | service, .supportChecked run outcome =>
    (service.supportChecked run outcome).map fun service => (service, [])
  | service, .evidenceRetrieved run outcome => service.evidenceRetrieved run outcome
  | service, .synthesized run outcome =>
    (service.synthesized run outcome).map fun service => (service, [])
  | service, .released run =>
    match service.runs[run]? with
    | some .ended => some ({ service.withRun run .released with running := false }, [])
    | _ => none
  | service, .dispose => some ({ service with disposed := true }, [])

end LocalFactCheckService

def FactCheckEvent.response : FactCheckEvent ρ → Option (GatewayJobResponse ρ)
  | .submitted _ _ response => some response
  | .polled response => some response
  | .synthesis _ => none

def GatewayJobResponse.isSettled (response : GatewayJobResponse ρ) : Prop :=
  response.status = .complete ∨ response.status = .failed

/-- After the job was returned as complete or failed, a poll returns the same and no
synthesis starts. -/
def Frozen (earlier later : FactCheckEvent ρ) : Prop :=
  ∀ response, earlier.response = some response → response.isSettled →
    match later with
    | .polled again => again.status = response.status ∧ again.result = response.result ∧
        again.error = response.error
    | .synthesis _ => False
    | .submitted _ _ _ => True

structure Idempotent (config : Config (LocalFactCheckService ρ) (FactCheckEvent ρ)) : Prop where
  sameInput : ∀ stage request response stage' request' response',
    .submitted stage request response ∈ config.trace →
    .submitted stage' request' response' ∈ config.trace →
    stage = stage' ∧ request = request'
  oneRun : config.state.runs.countP RunPhase.isPastFirstCheck ≤ 1
  frozen : config.trace.Pairwise Frozen

/-- A job goes into the map only while the map has none: no other call has put one there
since the lookup. -/
def InsertsFirst (service : LocalFactCheckService ρ) : FactCheckAction ρ → Prop
  | .read _ found => found.isSome → service.job = none
  | .continues call =>
    match service.calls[call]? with
    | some ⟨.submit _ _, .looked none⟩ => service.job = none
    | _ => True
  | _ => True

def insertsFirst :
    Guard (LocalFactCheckService ρ) (FactCheckAction ρ) (FactCheckEvent ρ) :=
  fun config action _ => InsertsFirst config.state action

end Obelus.Live.FactCheck
