import Mathlib.Data.List.Sort
import Obelus.Data.JsMap
import Obelus.Data.Text
import Obelus.Live.Types
import Obelus.Transition.Reaches

/-!
# The claim scheduler

`ClaimScheduler` collects finalized transcript turns into batches and takes one
batch at a time through three callbacks: `beginBatch`, `detect` and
`commitBatch`.  `flush` is an asynchronous function that suspends at each of
them, so the batch it works on lives in its frame and in none of the queues.

An action is one synchronous segment of the source: a method call up to its
first suspension, or the continuation of a suspended `flush` after its awaited
promise was settled.  Every action comes with what the segment reads from
outside, the clock and the claims of the meeting.
-/

namespace Obelus.Live

open Obelus.Data
open Obelus.Transition

structure ClaimCandidate where
  exactQuote : String
  normalizedClaim : String
  contextTurnIds : List String
  speakerId : Option String
  startMs : Number
  endMs : Number
  checkworthy : Bool
  consequenceScore : Number
  disputeLikelihoodScore : Number
  specificityScore : Number
  timeSensitive : Bool
  selectionRationale : String
  semanticDuplicateKey : String
  deriving DecidableEq

structure ClaimGateBatch where
  id : String
  meetingId : String
  idempotencyKey : String
  turns : List ClaimGateTurnSnapshot
  deriving DecidableEq

structure ExistingClaim where
  duplicateKey : String
  normalizedClaim : String
  deriving DecidableEq

structure ClaimDetectionBatch extends ClaimGateBatch where
  existingClaims : List ExistingClaim
  deriving DecidableEq

inductive DetectionSource
  | remote
  | «local»
  deriving DecidableEq

structure ClaimDetectionResult where
  candidates : List ClaimCandidate
  source : DetectionSource
  countAgainstRemoteBudget : Bool
  gatewayCatchingUp : Option Bool
  deriving DecidableEq

/-- What a `detect` callback resolves with. -/
inductive Detection
  | candidates (candidates : List ClaimCandidate)
  | result (result : ClaimDetectionResult)
  deriving DecidableEq

structure ClaimSchedulerOptions where
  maxGateCallsPerHour : Nat
  maxAcceptedClaimsPerHour : Nat
  maxBurstClaims : Nat
  burstWindowMs : Number
  minBatchDelayMs : Number
  maxTurnsPerBatch : Nat
  deriving DecidableEq

structure ScheduledClaimGateBatch extends ClaimGateBatch where
  begun : Bool

def gatewayClaimSchedulerOptions : ClaimSchedulerOptions where
  maxGateCallsPerHour := 30
  maxAcceptedClaimsPerHour := 10
  maxBurstClaims := 2
  burstWindowMs := 60000
  minBatchDelayMs := 1500
  maxTurnsPerBatch := 4

def maxCompletedTurnRevisions : Nat := 10000

/-- The text functions of the claim gate, which the scheduler applies to claim
wordings without looking into them. -/
structure ClaimText where
  normalized : String → String
  atomicComparisonStatement : String → Option String
  normalizedClaimWording : String → String
  sourceBackedSemanticDuplicate : String × List String → String × List String → Bool

def turnRevisionKey (turn : ClaimGateTurnSnapshot) : String :=
  turn.id ++ ":" ++ toString turn.revision

def snapshotTurn (turn : ClaimGateTurnSnapshot) : ClaimGateTurnSnapshot where
  id := turn.id
  speakerId := turn.speakerId
  startMs := turn.startMs
  endMs := turn.endMs
  text := turn.text
  revision := turn.revision
  sourceKind := turn.sourceKind

theorem snapshotTurn_eq_id : snapshotTurn = id :=
  rfl

def createClaimGateBatch (host : Host) (meetingId : String)
    (turns : List ClaimGateTurnSnapshot) : ClaimGateBatch :=
  let inventory := "|".intercalate (turns.map turnRevisionKey)
  let id := stableLiveUuid host ("claim-gate-batch:" ++ meetingId ++ ":" ++ inventory)
  { id
    meetingId
    idempotencyKey := "claim-gate:" ++ id
    turns := turns.map snapshotTurn }

@[simp]
theorem createClaimGateBatch_turns (host : Host) (meetingId : String)
    (turns : List ClaimGateTurnSnapshot) :
    (createClaimGateBatch host meetingId turns).turns = turns := by
  simp [createClaimGateBatch, snapshotTurn_eq_id]

def canonicalAutomaticComparisonCandidate (text : ClaimText) (candidate : ClaimCandidate) :
    ClaimCandidate :=
  match text.atomicComparisonStatement candidate.exactQuote with
  | none => candidate
  | some exactQuote =>
    let normalizedClaim :=
      (text.atomicComparisonStatement candidate.normalizedClaim).getD exactQuote
    { candidate with
      exactQuote
      normalizedClaim := text.normalizedClaimWording normalizedClaim }

/-- The position at which the running `flush` is suspended, with its locals. -/
inductive FlushAwait
  | beginBatch
  | detect (existingClaims : List Claim)
  | commitBatch (accepted : List ClaimCandidate) (rateLimited : Bool)

structure FlushFrame where
  batch : ScheduledClaimGateBatch
  await : FlushAwait

/-- The fields of the class.  `running` joins the flag of the source with the
frame of the suspended call that set it. -/
structure ClaimScheduler where
  meetingId : String
  options : ClaimSchedulerOptions
  pendingTurns : List TranscriptTurn
  pendingBatches : List ScheduledClaimGateBatch
  knownBatchIds : JsSet String
  completedTurnRevisions : JsSet String
  gateCallTimes : List Number
  acceptedClaimTimes : List Number
  timer : Option Number
  running : Option FlushFrame
  consecutiveFailures : Nat
  gatewayCatchingUp : Bool
  limitReached : Bool
  disposed : Bool

inductive BackpressureReason
  | gateway
  | limit
  deriving DecidableEq

/-- What can be observed of a scheduler: work it takes on, the calls of its
callbacks, and the resolution of `commitBatch`. -/
inductive Observation
  | accepted (turn : ClaimGateTurnSnapshot)
  | recovered (batch : ClaimGateBatch)
  | beginBatch (batch : ClaimGateBatch)
  | detect (batch : ClaimDetectionBatch)
  | commitBatch (batch : ClaimGateBatch) (candidates : List ClaimCandidate)
  | committed (batch : ClaimGateBatch)
  | onBackpressure (active : Bool) (reason : Option BackpressureReason)
  deriving DecidableEq

/-- The values one synchronous segment reads from outside. -/
structure Reading where
  now : Number
  claims : List Claim

namespace ClaimScheduler

def new (meetingId : String) (options : ClaimSchedulerOptions) : ClaimScheduler where
  meetingId
  options
  pendingTurns := []
  pendingBatches := []
  knownBatchIds := JsSet.empty
  completedTurnRevisions := JsSet.empty
  gateCallTimes := []
  acceptedClaimTimes := []
  timer := none
  running := none
  consecutiveFailures := 0
  gatewayCatchingUp := false
  limitReached := false
  disposed := false

def hasBatch (scheduler : ClaimScheduler) (batchId : String) : Bool :=
  scheduler.knownBatchIds.has batchId

/-- The three collections the source searches; the frame of a running `flush`
is not among them. -/
def hasTurnRevision (scheduler : ClaimScheduler) (turn : TranscriptTurn) : Bool :=
  let key := turnRevisionKey turn.toSnapshot
  scheduler.pendingTurns.any (fun candidate => turnRevisionKey candidate.toSnapshot = key) ||
    scheduler.completedTurnRevisions.has key ||
    scheduler.pendingBatches.any fun batch =>
      batch.turns.any fun candidate => turnRevisionKey candidate = key

def scheduleFlush (scheduler : ClaimScheduler) (delayMs : Number) : ClaimScheduler :=
  if scheduler.disposed || scheduler.timer.isSome then scheduler
  else { scheduler with timer := some delayMs }

def pruneBudgets (scheduler : ClaimScheduler) (now : Number) : ClaimScheduler :=
  let cutoff := now - 3600000
  { scheduler with
    gateCallTimes := scheduler.gateCallTimes.dropWhile (· < cutoff)
    acceptedClaimTimes := scheduler.acceptedClaimTimes.dropWhile (· < cutoff) }

def markTurnRevisionCompleted (completed : JsSet String) (turn : ClaimGateTurnSnapshot) :
    JsSet String :=
  let key := turnRevisionKey turn
  let added := (completed.delete key).add key
  if added.size > maxCompletedTurnRevisions then
    match added.elements with
    | [] => added
    | oldest :: _ => added.delete oldest
  else added

/-- The comparison by which pending turns are kept sorted. -/
def comparePendingTurns (host : Host) (left right : TranscriptTurn) : Number :=
  if left.startMs ≠ right.startMs then left.startMs - right.startMs
  else if left.providerTurnOrder ≠ right.providerTurnOrder then
    left.providerTurnOrder - right.providerTurnOrder
  else
    host.localeCompare (turnRevisionKey left.toSnapshot) (turnRevisionKey right.toSnapshot)

def sortPendingTurns (host : Host) (turns : List TranscriptTurn) : List TranscriptTurn :=
  turns.insertionSort fun left right => comparePendingTurns host left right ≤ 0

/-- Take the next pending batch, or make one of the first pending turns. -/
def nextBatch (host : Host) (scheduler : ClaimScheduler) :
    ScheduledClaimGateBatch × ClaimScheduler :=
  match scheduler.pendingBatches with
  | pending :: rest => (pending, { scheduler with pendingBatches := rest })
  | [] =>
    let taken := scheduler.pendingTurns.take scheduler.options.maxTurnsPerBatch
    let batch : ScheduledClaimGateBatch :=
      { toClaimGateBatch := createClaimGateBatch host scheduler.meetingId
          (taken.map TranscriptTurn.toSnapshot)
        begun := false }
    (batch,
      { scheduler with
        pendingTurns := scheduler.pendingTurns.drop scheduler.options.maxTurnsPerBatch
        knownBatchIds := scheduler.knownBatchIds.add batch.id })

def currentVersion (claim : Claim) : Option ClaimVersion :=
  claim.versions.find? fun version => version.id = claim.currentVersionId

/-- The segment of `flush` that lists the claims and calls `detect`. -/
def callDetect (scheduler : ClaimScheduler) (batch : ScheduledClaimGateBatch)
    (reading : Reading) : ClaimScheduler × List Observation :=
  let existingClaims := reading.claims.map fun claim =>
    { duplicateKey := claim.duplicateKey
      normalizedClaim := ((currentVersion claim).map (·.normalizedClaim)).getD "" }
  ({ scheduler with running := some ⟨batch, .detect reading.claims⟩ },
    [.detect { batch.toClaimGateBatch with existingClaims }])

/-- `flush` up to its first suspension. -/
def flush (host : Host) (scheduler : ClaimScheduler) (reading : Reading) :
    ClaimScheduler × List Observation :=
  if scheduler.disposed || scheduler.running.isSome ||
      (scheduler.pendingBatches.isEmpty && scheduler.pendingTurns.isEmpty) then
    (scheduler, [])
  else
    let scheduler := scheduler.pruneBudgets reading.now
    if scheduler.gateCallTimes.length ≥ scheduler.options.maxGateCallsPerHour then
      ({ scheduler with limitReached := true }, [.onBackpressure true (some .limit)])
    else
      let (batch, scheduler) := scheduler.nextBatch host
      if batch.begun then scheduler.callDetect batch reading
      else
        ({ scheduler with running := some ⟨batch, .beginBatch⟩ },
          [.beginBatch batch.toClaimGateBatch])

/-- The `finally` block of `flush`. -/
def finishFlush (scheduler : ClaimScheduler) (retryDelay : Number) : ClaimScheduler :=
  let scheduler := { scheduler with running := none }
  if !scheduler.disposed &&
      (!scheduler.pendingBatches.isEmpty || !scheduler.pendingTurns.isEmpty) then
    scheduler.scheduleFlush retryDelay
  else scheduler

/-- The state of the loop in `acceptedCandidates`. -/
structure Selection where
  existingKeys : List String
  existingNormalized : List String
  knownCandidates : List (String × List String)
  accepted : List ClaimCandidate
  remainingHourly : Nat
  remainingBurst : Nat
  rateLimited : Bool

/-- One iteration of the loop in `acceptedCandidates`. -/
def selectCandidate (text : ClaimText) (selection : Selection)
    (detectedCandidate : ClaimCandidate) : Selection :=
  let candidate := canonicalAutomaticComparisonCandidate text detectedCandidate
  if !candidate.checkworthy || candidate.specificityScore < 1 / 2 then selection
  else if candidate.consequenceScore < 45 / 100 &&
      candidate.disputeLikelihoodScore < 55 / 100 then selection
  else
    let normalizedClaim := text.normalized candidate.normalizedClaim
    let wording := (candidate.normalizedClaim, candidate.contextTurnIds)
    if candidate.semanticDuplicateKey ∈ selection.existingKeys ||
        normalizedClaim ∈ selection.existingNormalized ||
        selection.knownCandidates.any (text.sourceBackedSemanticDuplicate wording) then
      selection
    else if selection.remainingHourly = 0 || selection.remainingBurst = 0 then
      { selection with rateLimited := true }
    else
      { selection with
        existingKeys := selection.existingKeys ++ [candidate.semanticDuplicateKey]
        existingNormalized := selection.existingNormalized ++ [normalizedClaim]
        knownCandidates := selection.knownCandidates ++ [wording]
        accepted := selection.accepted ++ [candidate]
        remainingHourly := selection.remainingHourly - 1
        remainingBurst := selection.remainingBurst - 1 }

/-- The candidates of a detection that are new and within the budgets.  The
source prunes the budgets first; the caller below does so. -/
def acceptedCandidates (text : ClaimText) (scheduler : ClaimScheduler) (now : Number)
    (candidates : List ClaimCandidate) (existingClaims : List Claim) : Selection :=
  let burstStart := now - scheduler.options.burstWindowMs
  let known := existingClaims.filterMap fun claim =>
    (currentVersion claim).map fun version => (version.normalizedClaim, version.segmentIds)
  candidates.foldl (selectCandidate text)
    { existingKeys := existingClaims.map (·.duplicateKey)
      existingNormalized := known.map fun wording => text.normalized wording.1
      knownCandidates := known
      accepted := []
      remainingHourly :=
        scheduler.options.maxAcceptedClaimsPerHour - scheduler.acceptedClaimTimes.length
      remainingBurst :=
        scheduler.options.maxBurstClaims -
          (scheduler.acceptedClaimTimes.filter (· ≥ burstStart)).length
      rateLimited := false }

/-- `flush` after `beginBatch` resolved. -/
def beginResolved (scheduler : ClaimScheduler) (batch : ScheduledClaimGateBatch)
    (reading : Reading) : ClaimScheduler × List Observation :=
  if scheduler.disposed then
    (scheduler.finishFlush scheduler.options.minBatchDelayMs, [])
  else scheduler.callDetect { batch with begun := true } reading

/-- `flush` after `detect` resolved. -/
def detectResolved (text : ClaimText) (scheduler : ClaimScheduler)
    (batch : ScheduledClaimGateBatch) (existingClaims : List Claim) (detection : Detection)
    (reading : Reading) : ClaimScheduler × List Observation :=
  if scheduler.disposed then
    (scheduler.finishFlush scheduler.options.minBatchDelayMs, [])
  else
    let candidates := match detection with
      | .candidates candidates => candidates
      | .result result => result.candidates
    let counted := match detection with
      | .candidates _ => true
      | .result result => result.countAgainstRemoteBudget
    let scheduler :=
      if counted then
        { scheduler with gateCallTimes := scheduler.gateCallTimes ++ [reading.now] }
      else scheduler
    let scheduler := match detection with
      | .candidates _ => scheduler
      | .result result =>
        { scheduler with
          gatewayCatchingUp := result.gatewayCatchingUp.getD scheduler.gatewayCatchingUp }
    let scheduler := scheduler.pruneBudgets reading.now
    let selection := scheduler.acceptedCandidates text reading.now candidates existingClaims
    ({ scheduler with
        running := some ⟨batch, .commitBatch selection.accepted selection.rateLimited⟩ },
      [.commitBatch batch.toClaimGateBatch selection.accepted])

/-- `flush` after `commitBatch` resolved. -/
def commitResolved (scheduler : ClaimScheduler) (batch : ScheduledClaimGateBatch)
    (accepted : List ClaimCandidate) (rateLimited : Bool) (reading : Reading) :
    ClaimScheduler × List Observation :=
  if scheduler.disposed then
    (scheduler.finishFlush scheduler.options.minBatchDelayMs,
      [.committed batch.toClaimGateBatch])
  else
    let scheduler :=
      { scheduler with
        knownBatchIds := scheduler.knownBatchIds.delete batch.id
        completedTurnRevisions :=
          batch.turns.foldl markTurnRevisionCompleted scheduler.completedTurnRevisions
        acceptedClaimTimes :=
          scheduler.acceptedClaimTimes ++ accepted.map fun _ => reading.now
        consecutiveFailures := 0
        limitReached := rateLimited }
    let reason :=
      if rateLimited then some BackpressureReason.limit
      else if scheduler.gatewayCatchingUp then some .gateway
      else none
    (scheduler.finishFlush scheduler.options.minBatchDelayMs,
      [.committed batch.toClaimGateBatch, .onBackpressure reason.isSome reason])

/-- `flush` after the promise it awaits was rejected. -/
def rejected (scheduler : ClaimScheduler) (batch : ScheduledClaimGateBatch) :
    ClaimScheduler × List Observation :=
  if scheduler.disposed then
    (scheduler.finishFlush scheduler.options.minBatchDelayMs, [])
  else
    let scheduler :=
      { scheduler with
        pendingBatches := batch :: scheduler.pendingBatches
        consecutiveFailures := scheduler.consecutiveFailures + 1 }
    (scheduler.finishFlush (min 60000 (1000 * 2 ^ scheduler.consecutiveFailures)),
      [.onBackpressure true (some .gateway)])

def recoverBatch (scheduler : ClaimScheduler) (batch : ClaimGateBatch) :
    ClaimScheduler × List Observation :=
  if scheduler.disposed then (scheduler, [])
  else if batch.meetingId ≠ scheduler.meetingId || batch.turns.isEmpty then (scheduler, [])
  else if scheduler.hasBatch batch.id then (scheduler, [])
  else
    let recovered := { batch with turns := batch.turns.map snapshotTurn }
    let scheduler :=
      { scheduler with
        knownBatchIds := scheduler.knownBatchIds.add batch.id
        pendingBatches := scheduler.pendingBatches ++ [ScheduledClaimGateBatch.mk recovered true] }
    (scheduler.scheduleFlush scheduler.options.minBatchDelayMs, [.recovered recovered])

/-- The guards of `addFinalTurn`. -/
def acceptsTurn (scheduler : ClaimScheduler) (turn : TranscriptTurn) : Bool :=
  !scheduler.disposed && (turn.status = .final || turn.status = .revised) &&
    turn.meetingId = scheduler.meetingId && !scheduler.hasTurnRevision turn

def addFinalTurn (host : Host) (scheduler : ClaimScheduler) (turn : TranscriptTurn)
    (reading : Reading) : ClaimScheduler × List Observation :=
  if scheduler.acceptsTurn turn then
    let scheduler :=
      { scheduler with
        pendingTurns := sortPendingTurns host (scheduler.pendingTurns ++ [turn]) }
    if scheduler.pendingTurns.length ≥ scheduler.options.maxTurnsPerBatch then
      let (scheduler, observations) := scheduler.flush host reading
      (scheduler, .accepted turn.toSnapshot :: observations)
    else
      (scheduler.scheduleFlush scheduler.options.minBatchDelayMs, [.accepted turn.toSnapshot])
  else (scheduler, [])

def setMaxGateCallsPerHour (scheduler : ClaimScheduler) (maxGateCallsPerHour : Number)
    (reading : Reading) : ClaimScheduler :=
  if scheduler.disposed then scheduler
  else if maxGateCallsPerHour.den ≠ 1 || maxGateCallsPerHour < 1 then scheduler
  else
    let scheduler :=
      { scheduler with
        options := { scheduler.options with
          maxGateCallsPerHour := maxGateCallsPerHour.num.toNat } }
    let scheduler := scheduler.pruneBudgets reading.now
    if scheduler.limitReached &&
        scheduler.gateCallTimes.length < scheduler.options.maxGateCallsPerHour &&
        (!scheduler.pendingBatches.isEmpty || !scheduler.pendingTurns.isEmpty) then
      { scheduler with limitReached := false }.scheduleFlush 0
    else scheduler

def dispose (scheduler : ClaimScheduler) : ClaimScheduler :=
  { scheduler with
    disposed := true
    timer := none
    pendingTurns := []
    pendingBatches := []
    knownBatchIds := JsSet.empty
    completedTurnRevisions := JsSet.empty }

inductive Action
  | addFinalTurn (turn : TranscriptTurn)
  | recoverBatch (batch : ClaimGateBatch)
  | flush
  | timerFired
  | setMaxGateCallsPerHour (maxGateCallsPerHour : Number)
  | dispose
  | beginResolved
  | detectResolved (detection : Detection)
  | commitResolved
  | rejected
  deriving DecidableEq

/-- One synchronous segment.  Timers fire and promises settle only where the
scheduler waits for them. -/
def step (host : Host) (text : ClaimText) :
    Machine ClaimScheduler (Reading × Action) Observation
  | scheduler, (reading, .addFinalTurn turn) => some (scheduler.addFinalTurn host turn reading)
  | scheduler, (_, .recoverBatch batch) => some (scheduler.recoverBatch batch)
  | scheduler, (reading, .flush) => some (scheduler.flush host reading)
  | scheduler, (reading, .timerFired) =>
    match scheduler.timer with
    | none => none
    | some _ => some ({ scheduler with timer := none }.flush host reading)
  | scheduler, (reading, .setMaxGateCallsPerHour maxGateCallsPerHour) =>
    some (scheduler.setMaxGateCallsPerHour maxGateCallsPerHour reading, [])
  | scheduler, (_, .dispose) => some (scheduler.dispose, [])
  | scheduler, (reading, .beginResolved) =>
    match scheduler.running with
    | some ⟨batch, .beginBatch⟩ => some (scheduler.beginResolved batch reading)
    | _ => none
  | scheduler, (reading, .detectResolved detection) =>
    match scheduler.running with
    | some ⟨batch, .detect existingClaims⟩ =>
      some (scheduler.detectResolved text batch existingClaims detection reading)
    | _ => none
  | scheduler, (reading, .commitResolved) =>
    match scheduler.running with
    | some ⟨batch, .commitBatch accepted rateLimited⟩ =>
      some (scheduler.commitResolved batch accepted rateLimited reading)
    | _ => none
  | scheduler, (_, .rejected) =>
    match scheduler.running with
    | some ⟨batch, _⟩ => some (scheduler.rejected batch)
    | none => none

section Steps

variable (host : Host) (text : ClaimText) (scheduler : ClaimScheduler) (reading : Reading)

/-- The outcomes of a step. -/
inductive Steps : Action → ClaimScheduler × List Observation → Prop
  | addFinalTurn (turn : TranscriptTurn) :
      Steps (.addFinalTurn turn) (scheduler.addFinalTurn host turn reading)
  | recoverBatch (batch : ClaimGateBatch) :
      Steps (.recoverBatch batch) (scheduler.recoverBatch batch)
  | flush : Steps .flush (scheduler.flush host reading)
  | timerFired : Steps .timerFired ({ scheduler with timer := none }.flush host reading)
  | setMaxGateCallsPerHour (limit : Number) :
      Steps (.setMaxGateCallsPerHour limit) (scheduler.setMaxGateCallsPerHour limit reading, [])
  | dispose : Steps .dispose (scheduler.dispose, [])
  | beginResolved {batch : ScheduledClaimGateBatch}
      (runs : scheduler.running = some ⟨batch, .beginBatch⟩) :
      Steps .beginResolved (scheduler.beginResolved batch reading)
  | detectResolved {batch : ScheduledClaimGateBatch} {existingClaims : List Claim}
      (runs : scheduler.running = some ⟨batch, .detect existingClaims⟩) (detection : Detection) :
      Steps (.detectResolved detection)
        (scheduler.detectResolved text batch existingClaims detection reading)
  | commitResolved {batch : ScheduledClaimGateBatch} {accepted : List ClaimCandidate}
      {rateLimited : Bool}
      (runs : scheduler.running = some ⟨batch, .commitBatch accepted rateLimited⟩) :
      Steps .commitResolved (scheduler.commitResolved batch accepted rateLimited reading)
  | rejected {batch : ScheduledClaimGateBatch} {await : FlushAwait}
      (runs : scheduler.running = some ⟨batch, await⟩) :
      Steps .rejected (scheduler.rejected batch)

variable {host text scheduler reading}

theorem steps_of_step {action : Action} {next : ClaimScheduler} {emitted : List Observation}
    (stepped : step host text scheduler (reading, action) = some (next, emitted)) :
    ∃ result, Steps host text scheduler reading action result ∧ next = result.1 ∧
      emitted = result.2 := by
  refine ⟨(next, emitted), ?_, rfl, rfl⟩
  unfold step at stepped
  split at stepped
  all_goals
    rename_i same
    cases same
  case h_4 =>
    split at stepped
    · cases stepped
    · exact Option.some.inj stepped ▸ .timerFired
  case h_7 | h_8 | h_9 | h_10 =>
    split at stepped
    · next runs => exact Option.some.inj stepped ▸ by constructor <;> exact runs
    · cases stepped
  all_goals exact Option.some.inj stepped ▸ by constructor

end Steps

end ClaimScheduler

end Obelus.Live
