import Obelus.Data.SlidingWindow
import Obelus.Live.ClaimScheduler.Ledger

/-!
# The budgets of the scheduler

The scheduler counts the gate calls and the claims it recorded before it makes more of them,
and records the new ones only after the awaited callback resolved.  In between no other
flush runs, so what there was room for still fits when it is recorded.

Recorded times are forgotten after an hour, whatever the burst window is.  A longer burst
window is bounded like one of an hour.
-/

namespace Obelus.Live.ClaimScheduler

open Obelus.Data.SlidingWindow List
open Obelus.Transition

/-- The horizon of `pruneBudgets`. -/
def hour : Number := 3600000

/-- What a segment records at the time it reads: gate calls that count against the remote
budget, and claims of a resolved commit. -/
structure Recording where
  now : Number
  gateCalls : Nat
  claims : Nat

def recordedGateCalls (scheduler : ClaimScheduler) : Action → Nat
  | .detectResolved (.candidates _) => if scheduler.disposed then 0 else 1
  | .detectResolved (.result result) =>
    if scheduler.disposed || !result.countAgainstRemoteBudget then 0 else 1
  | _ => 0

def recordedClaims (scheduler : ClaimScheduler) : Action → Nat
  | .commitResolved =>
    match scheduler.running with
    | some ⟨_, .commitBatch accepted _⟩ => if scheduler.disposed then 0 else accepted.length
    | _ => 0
  | _ => 0

def recorded (scheduler : ClaimScheduler) (action : Reading × Action) : Recording where
  now := action.1.now
  gateCalls := scheduler.recordedGateCalls action.2
  claims := scheduler.recordedClaims action.2

/-- The scheduler observed through what its segments record. -/
def recordingStep (host : Host) (text : ClaimText) :
    Machine ClaimScheduler (Reading × Action) Recording :=
  fun scheduler action =>
    (step host text scheduler action).map fun result =>
      (result.1, [scheduler.recorded action])

/-- The times of the counted gate calls of a run. -/
def gateCallsOf (trace : List Recording) : List Number :=
  trace.flatMap fun recording => List.replicate recording.gateCalls recording.now

/-- The times of the claims in the resolved commits of a run. -/
def claimsOf (trace : List Recording) : List Number :=
  trace.flatMap fun recording => List.replicate recording.claims recording.now

/-- The clock never goes back, and the options never change. -/
def steady : Guard ClaimScheduler (Reading × Action) Recording :=
  fun config action next =>
    (∀ recording ∈ config.trace, recording.now ≤ action.1.now) ∧
      next.state.options = config.state.options

/-! ## Room during a flush -/

/-- The part of the burst window the scheduler remembers. -/
def burstWindow (options : ClaimSchedulerOptions) : Number :=
  min options.burstWindowMs hour

/-- What a suspended flush is going to record still fits. -/
def RoomFor (scheduler : ClaimScheduler) (now : Number) : FlushAwait → Prop
  | .beginBatch | .detect _ =>
    Room scheduler.options.maxGateCallsPerHour hour scheduler.gateCallTimes now 1
  | .commitBatch accepted _ =>
    Room scheduler.options.maxAcceptedClaimsPerHour hour scheduler.acceptedClaimTimes now
        accepted.length ∧
      Room scheduler.options.maxBurstClaims (burstWindow scheduler.options)
        scheduler.acceptedClaimTimes now accepted.length

def HasRoom (scheduler : ClaimScheduler) (now : Number) : Prop :=
  ∀ frame ∈ scheduler.running, scheduler.RoomFor now frame.await

variable {scheduler before after : ClaimScheduler} {now : Number} {host : Host} {text : ClaimText}
  {action : Reading × Action} {emitted : List Observation}

theorem HasRoom.later {next : Number} (room : scheduler.HasRoom now) (waited : now ≤ next) :
    scheduler.HasRoom next := by
  rintro ⟨batch, await⟩ runs
  have fits := room _ runs
  cases await with
  | beginBatch => exact Room.later fits waited
  | detect => exact Room.later fits waited
  | commitBatch => exact ⟨Room.later fits.1 waited, Room.later fits.2 waited⟩

theorem hasRoom_of_idle (now : Number) (idle : scheduler.running = none) :
    scheduler.HasRoom now := by
  intro frame runs
  rw [idle] at runs
  cases runs

/-- The times kept after a segment: those before it and the recorded ones, pruned or not. -/
def Follows (now : Number) (before after : List Number) : Prop :=
  after = before ∨ after = before.dropWhile (· < now - hour)

/-- What a segment does to the budgets. -/
structure Records (before after : ClaimScheduler) (recording : Recording) : Prop where
  gateCallTimes : Follows recording.now
    (before.gateCallTimes ++ List.replicate recording.gateCalls recording.now)
    after.gateCallTimes
  acceptedClaimTimes : Follows recording.now
    (before.acceptedClaimTimes ++ List.replicate recording.claims recording.now)
    after.acceptedClaimTimes
  room : after.options = before.options → before.HasRoom recording.now →
    after.HasRoom recording.now

theorem Follows.recent_eq {width : Number} {before after : List Number}
    (follows : Follows now before after) (narrow : width ≤ hour) :
    recent after width now = recent before width now := by
  rcases follows with rfl | rfl
  · rfl
  · exact ((keeps_self hour now before).prune.recent_eq narrow).symm

/-- A segment that records nothing and keeps the running flush keeps the room it has. -/
theorem records_of_same (gateCalls : Follows now before.gateCallTimes after.gateCallTimes)
    (claims : Follows now before.acceptedClaimTimes after.acceptedClaimTimes)
    (running : after.running = before.running) : Records before after ⟨now, 0, 0⟩ where
  gateCallTimes := by simpa using gateCalls
  acceptedClaimTimes := by simpa using claims
  room := by
    rintro same room ⟨batch, await⟩ runs
    have fits := room _ (running ▸ runs)
    have narrow : burstWindow before.options ≤ hour := min_le_right _ _
    cases await with
    | beginBatch =>
      simp only [RoomFor, Room, same, gateCalls.recent_eq le_rfl] at fits ⊢
      exact fits
    | detect =>
      simp only [RoomFor, Room, same, gateCalls.recent_eq le_rfl] at fits ⊢
      exact fits
    | commitBatch =>
      simp only [RoomFor, Room, same, claims.recent_eq le_rfl, claims.recent_eq narrow] at fits ⊢
      exact fits

/-- A segment that ends the flush leaves nothing to make room for. -/
theorem records_of_idle {recording : Recording} (gateCalls : after.gateCallTimes =
      before.gateCallTimes ++ replicate recording.gateCalls recording.now)
    (claims : after.acceptedClaimTimes =
      before.acceptedClaimTimes ++ replicate recording.claims recording.now)
    (idle : after.running = none) : Records before after recording where
  gateCallTimes := Or.inl gateCalls
  acceptedClaimTimes := Or.inl claims
  room _ _ := hasRoom_of_idle _ idle

/-- A segment that suspends the flush makes room for what it is going to record. -/
theorem records_of_call {frame : FlushFrame}
    (gateCalls : after.gateCallTimes = before.gateCallTimes.dropWhile (· < now - hour))
    (claims : after.acceptedClaimTimes = before.acceptedClaimTimes.dropWhile (· < now - hour))
    (running : after.running = some frame) (fits : after.RoomFor now frame.await) :
    Records before after ⟨now, 0, 0⟩ where
  gateCallTimes := Or.inr (by simpa using gateCalls)
  acceptedClaimTimes := Or.inr (by simpa using claims)
  room _ _ other runs := by
    rw [running] at runs
    cases runs
    exact fits

/-! ## The segments -/

section Fields

variable (scheduler : ClaimScheduler) (delayMs : Number)

@[simp]
theorem scheduleFlush_gateCallTimes :
    (scheduler.scheduleFlush delayMs).gateCallTimes = scheduler.gateCallTimes := by
  unfold scheduleFlush
  split <;> rfl

@[simp]
theorem scheduleFlush_acceptedClaimTimes :
    (scheduler.scheduleFlush delayMs).acceptedClaimTimes = scheduler.acceptedClaimTimes := by
  unfold scheduleFlush
  split <;> rfl

@[simp]
theorem scheduleFlush_running : (scheduler.scheduleFlush delayMs).running = scheduler.running := by
  unfold scheduleFlush
  split <;> rfl

@[simp]
theorem finishFlush_gateCallTimes :
    (scheduler.finishFlush delayMs).gateCallTimes = scheduler.gateCallTimes := by
  unfold finishFlush
  dsimp only
  split <;> simp

@[simp]
theorem finishFlush_acceptedClaimTimes :
    (scheduler.finishFlush delayMs).acceptedClaimTimes = scheduler.acceptedClaimTimes := by
  unfold finishFlush
  dsimp only
  split <;> simp

@[simp]
theorem finishFlush_running : (scheduler.finishFlush delayMs).running = none := by
  unfold finishFlush
  dsimp only
  split <;> simp

@[simp]
theorem pruneBudgets_gateCallTimes (now : Number) : (scheduler.pruneBudgets now).gateCallTimes =
      scheduler.gateCallTimes.dropWhile (· < now - hour) :=
  rfl

@[simp]
theorem pruneBudgets_acceptedClaimTimes (now : Number) :
    (scheduler.pruneBudgets now).acceptedClaimTimes =
      scheduler.acceptedClaimTimes.dropWhile (· < now - hour) :=
  rfl

@[simp]
theorem pruneBudgets_running (now : Number) :
    (scheduler.pruneBudgets now).running = scheduler.running :=
  rfl

end Fields

theorem records_refl (scheduler : ClaimScheduler) (now : Number) :
    Records scheduler scheduler ⟨now, 0, 0⟩ :=
  records_of_same (Or.inl rfl) (Or.inl rfl) rfl

section NextBatch

variable (host : Host) (scheduler : ClaimScheduler)

@[simp]
theorem nextBatch_gateCallTimes :
    (scheduler.nextBatch host).2.gateCallTimes = scheduler.gateCallTimes := by
  unfold nextBatch
  split <;> rfl

@[simp]
theorem nextBatch_acceptedClaimTimes :
    (scheduler.nextBatch host).2.acceptedClaimTimes = scheduler.acceptedClaimTimes := by
  unfold nextBatch
  split <;> rfl

@[simp]
theorem nextBatch_options : (scheduler.nextBatch host).2.options = scheduler.options := by
  unfold nextBatch
  split <;> rfl

end NextBatch

/-- A flush that goes on has found room for one more gate call. -/
theorem records_flush (host : Host) (scheduler : ClaimScheduler) (reading : Reading) :
    Records scheduler (scheduler.flush host reading).1 ⟨reading.now, 0, 0⟩ := by
  rw [flush]
  split
  · exact records_refl _ _
  simp only
  split
  · exact records_of_same (Or.inr rfl) (Or.inr rfl) rfl
  · next left =>
    have fits : Room scheduler.options.maxGateCallsPerHour hour
        (scheduler.pruneBudgets reading.now).gateCallTimes reading.now 1 := by
      have fewer := length_filter_le (fun time => decide (reading.now - hour ≤ time))
        (scheduler.pruneBudgets reading.now).gateCallTimes
      have below : ¬scheduler.options.maxGateCallsPerHour ≤
          (scheduler.pruneBudgets reading.now).gateCallTimes.length := left
      rw [Room, recent]
      omega
    have gateCalls := nextBatch_gateCallTimes host (scheduler.pruneBudgets reading.now)
    have claims := nextBatch_acceptedClaimTimes host (scheduler.pruneBudgets reading.now)
    have options := nextBatch_options host (scheduler.pruneBudgets reading.now)
    split
    · apply records_of_call _ _ rfl
      · rw [callDetect, gateCalls, options]
        exact fits
      · exact gateCalls
      · exact claims
    · apply records_of_call _ _ rfl
      · rw [gateCalls, options]
        exact fits
      · exact gateCalls
      · exact claims

theorem Records.of_same_start {start : ClaimScheduler} (records : Records start after ⟨now, 0, 0⟩)
    (gateCalls : start.gateCallTimes = before.gateCallTimes)
    (claims : start.acceptedClaimTimes = before.acceptedClaimTimes)
    (running : start.running = before.running) (options : start.options = before.options) :
    Records before after ⟨now, 0, 0⟩ where
  gateCallTimes := gateCalls ▸ records.gateCallTimes
  acceptedClaimTimes := claims ▸ records.acceptedClaimTimes
  room same room := by
    apply records.room (same.trans options.symm)
    apply (@records_of_same before start _ _ _ running).room options room
    · exact Or.inl gateCalls
    · exact Or.inl claims

/-! ## The selection of claims -/

/-- A candidate that is accepted uses up one claim of either budget. -/
theorem selectCandidate_budgets (text : ClaimText) (selection : Selection)
    (candidate : ClaimCandidate) : (selectCandidate text selection candidate).accepted.length +
          (selectCandidate text selection candidate).remainingHourly =
        selection.accepted.length + selection.remainingHourly ∧
      (selectCandidate text selection candidate).accepted.length +
          (selectCandidate text selection candidate).remainingBurst =
        selection.accepted.length + selection.remainingBurst := by
  unfold selectCandidate
  dsimp only
  split
  · exact ⟨rfl, rfl⟩
  split
  · exact ⟨rfl, rfl⟩
  split
  · exact ⟨rfl, rfl⟩
  split
  · exact ⟨rfl, rfl⟩
  · next left =>
    simp only [Bool.or_eq_true, decide_eq_true_eq] at left
    rw [length_append, length_singleton]
    dsimp only
    omega

theorem foldl_selectCandidate_budgets (text : ClaimText) (candidates : List ClaimCandidate)
    (selection : Selection) : (candidates.foldl (selectCandidate text) selection).accepted.length ≤
        selection.accepted.length + selection.remainingHourly ∧
      (candidates.foldl (selectCandidate text) selection).accepted.length ≤
        selection.accepted.length + selection.remainingBurst := by
  induction candidates generalizing selection with
  | nil => exact ⟨Nat.le_add_right _ _, Nat.le_add_right _ _⟩
  | cons candidate rest ih =>
    have kept := selectCandidate_budgets text selection candidate
    have later := ih (selectCandidate text selection candidate)
    rw [kept.1, kept.2] at later
    exact later

section Accepted

variable (text : ClaimText) (scheduler : ClaimScheduler) (now : Number)
  (candidates : List ClaimCandidate) (existingClaims : List Claim)

theorem length_acceptedCandidates_le_hourly :
    (scheduler.acceptedCandidates text now candidates existingClaims).accepted.length ≤
      scheduler.options.maxAcceptedClaimsPerHour - scheduler.acceptedClaimTimes.length := by
  apply (foldl_selectCandidate_budgets text candidates _).1.trans
  exact (Nat.zero_add _).le

theorem length_acceptedCandidates_le_burst :
    (scheduler.acceptedCandidates text now candidates existingClaims).accepted.length ≤
      scheduler.options.maxBurstClaims -
        (scheduler.acceptedClaimTimes.filter
          (· ≥ now - scheduler.options.burstWindowMs)).length := by
  apply (foldl_selectCandidate_budgets text candidates _).2.trans
  exact (Nat.zero_add _).le

/-- There is room in both budgets for the claims that are accepted. -/
theorem room_acceptedCandidates :
    Room scheduler.options.maxAcceptedClaimsPerHour hour scheduler.acceptedClaimTimes now
        (scheduler.acceptedCandidates text now candidates existingClaims).accepted.length ∧
      Room scheduler.options.maxBurstClaims (burstWindow scheduler.options)
        scheduler.acceptedClaimTimes now
        (scheduler.acceptedCandidates text now candidates existingClaims).accepted.length := by
  constructor
  · have fits := length_acceptedCandidates_le_hourly text scheduler now candidates existingClaims
    have fewer := length_filter_le (fun time => decide (now - hour ≤ time))
      scheduler.acceptedClaimTimes
    rw [Room, recent]
    omega
  · have fits := length_acceptedCandidates_le_burst text scheduler now candidates existingClaims
    have fewer : (recent scheduler.acceptedClaimTimes (burstWindow scheduler.options) now).length ≤
        (scheduler.acceptedClaimTimes.filter
          (· ≥ now - scheduler.options.burstWindowMs)).length := by
      apply Sublist.length_le
      apply monotone_filter_right
      intro time isRecent
      simp only [decide_eq_true_eq] at isRecent ⊢
      exact (sub_le_sub_left (min_le_left _ _) now).trans isRecent
    rw [Room]
    omega

end Accepted

/-! ## Steps -/

/-- Every step records what it appends to the kept times, and leaves a suspended flush with
room for what that flush is going to record. -/
theorem records_step {next : ClaimScheduler}
    (stepped : step host text scheduler action = some (next, emitted)) :
    Records scheduler next (scheduler.recorded action) := by
  obtain ⟨reading, action⟩ := action
  obtain ⟨_, steps, rfl, rfl⟩ := steps_of_step stepped
  cases steps with
  | addFinalTurn turn =>
    unfold addFinalTurn
    split
    · dsimp only
      split
      · exact (records_flush host _ reading).of_same_start rfl rfl rfl rfl
      · exact records_of_same (Or.inl (by simp)) (Or.inl (by simp)) (by simp)
    · exact records_refl _ _
  | recoverBatch batch =>
    unfold recoverBatch
    split
    · exact records_refl _ _
    split
    · exact records_refl _ _
    split
    · exact records_refl _ _
    · exact records_of_same (Or.inl (by simp)) (Or.inl (by simp)) (by simp)
  | flush =>
    exact records_flush host scheduler reading
  | timerFired =>
    exact (records_flush host _ reading).of_same_start rfl rfl rfl rfl
  | setMaxGateCallsPerHour maxGateCallsPerHour =>
    unfold setMaxGateCallsPerHour
    split
    · exact records_refl _ _
    split
    · exact records_refl _ _
    dsimp only
    split
    · exact records_of_same (Or.inr (by simp)) (Or.inr (by simp)) (by simp)
    · exact records_of_same (Or.inr rfl) (Or.inr rfl) rfl
  | dispose =>
    exact records_of_same (Or.inl rfl) (Or.inl rfl) rfl
  | beginResolved runs =>
    rw [beginResolved]
    split
    · exact records_of_idle (by simp [recorded, recordedGateCalls])
        (by simp [recorded, recordedClaims]) (by simp)
    · refine ⟨Or.inl (by simp [callDetect, recorded, recordedGateCalls]),
        Or.inl (by simp [callDetect, recorded, recordedClaims]), ?_⟩
      rintro - room frame started
      cases started
      exact room _ runs
  | detectResolved runs detection =>
    unfold detectResolved
    split
    · next disposed =>
      apply records_of_idle
      · cases detection <;> simp [recorded, recordedGateCalls, disposed]
      · simp [recorded, recordedClaims]
      · simp
    · next active =>
      refine ⟨Or.inr ?_, Or.inr ?_, ?_⟩
      · cases detection with
        | candidates => simp [recorded, recordedGateCalls, active]
        | result result =>
          cases counted : result.countAgainstRemoteBudget <;>
            simp [recorded, recordedGateCalls, active, counted]
      · cases detection with
        | candidates => exact congrArg (dropWhile _) (append_nil _).symm
        | result result =>
          cases counted : result.countAgainstRemoteBudget <;> simp only [counted] <;>
            exact congrArg (dropWhile _) (append_nil _).symm
      · rintro - - frame started
        cases started
        exact room_acceptedCandidates text _ reading.now _ _
  | commitResolved runs =>
    rw [commitResolved]
    split
    · next disposed =>
      exact records_of_idle (by simp [recorded, recordedGateCalls])
        (by simp [recorded, recordedClaims, runs, disposed]) (by simp)
    · next active =>
      exact records_of_idle (by simp [recorded, recordedGateCalls])
        (by simp [recorded, recordedClaims, runs, active, map_const']) (by simp)
  | rejected =>
    rw [rejected]
    split
    · exact records_of_idle (by simp [recorded, recordedGateCalls])
        (by simp [recorded, recordedClaims]) (by simp)
    · exact records_of_idle (by simp [recorded, recordedGateCalls])
        (by simp [recorded, recordedClaims]) (by simp)

/-- What a step records had room when the flush was suspended. -/
theorem room_recorded {next : ClaimScheduler}
    (stepped : step host text scheduler action = some (next, emitted))
    (room : scheduler.HasRoom action.1.now) :
    Room scheduler.options.maxGateCallsPerHour hour scheduler.gateCallTimes action.1.now
        (scheduler.recorded action).gateCalls ∧
      Room scheduler.options.maxAcceptedClaimsPerHour hour scheduler.acceptedClaimTimes
        action.1.now (scheduler.recorded action).claims ∧
      Room scheduler.options.maxBurstClaims (burstWindow scheduler.options)
        scheduler.acceptedClaimTimes action.1.now (scheduler.recorded action).claims := by
  obtain ⟨reading, action⟩ := action
  obtain ⟨_, steps, -, -⟩ := steps_of_step stepped
  cases steps with
  | detectResolved runs detection =>
    refine ⟨?_, Or.inr rfl, Or.inr rfl⟩
    cases detection with
    | candidates =>
      dsimp only [recorded, recordedGateCalls]
      split
      · exact Or.inr rfl
      · exact room _ runs
    | result result =>
      dsimp only [recorded, recordedGateCalls]
      split
      · exact Or.inr rfl
      · exact room _ runs
  | commitResolved runs =>
    simp only [recorded, recordedClaims, runs]
    refine ⟨Or.inr rfl, ?_⟩
    split
    · exact ⟨Or.inr rfl, Or.inr rfl⟩
    · exact room _ runs
  | _ => exact ⟨Or.inr rfl, Or.inr rfl, Or.inr rfl⟩

/-! ## Runs -/

/-- What holds of the recorded times throughout a run. -/
structure Budgeted (options : ClaimSchedulerOptions) (config : Config ClaimScheduler Recording) :
    Prop where
  sameOptions : config.state.options = options
  gateCalls : Bounded options.maxGateCallsPerHour hour (gateCallsOf config.trace)
  claims : Bounded options.maxAcceptedClaimsPerHour hour (claimsOf config.trace)
  burst : Bounded options.maxBurstClaims (burstWindow options) (claimsOf config.trace)
  keepsGateCalls : ∀ now, (∀ recording ∈ config.trace, recording.now ≤ now) →
    Keeps hour now (gateCallsOf config.trace) config.state.gateCallTimes
  keepsClaims : ∀ now, (∀ recording ∈ config.trace, recording.now ≤ now) →
    Keeps hour now (claimsOf config.trace) config.state.acceptedClaimTimes
  room : ∀ now, (∀ recording ∈ config.trace, recording.now ≤ now) → config.state.HasRoom now

theorem Follows.keeps {times before after added : List Number}
    (follows : Follows now (before ++ added) after) (keeps : Keeps hour now times before) :
    Keeps hour now (times ++ added) after := by
  rcases follows with rfl | rfl
  · exact keeps.append added
  · exact (keeps.append added).prune

theorem Budgeted.step {options : ClaimSchedulerOptions}
    {config next : Config ClaimScheduler Recording} (budgeted : Budgeted options config)
    (advanced : advance (recordingStep host text) config action = some next)
    (isSteady : steady config action next) : Budgeted options next := by
  obtain ⟨emitted, observed, traceEq⟩ := advance_eq_some_iff.mp advanced
  obtain ⟨⟨state, observations⟩, stepped, result⟩ := Option.map_eq_some_iff.mp observed
  cases result
  obtain ⟨notBack, sameOptions⟩ := isSteady
  have records := records_step stepped
  have keepsGateCalls := budgeted.keepsGateCalls _ notBack
  have keepsClaims := budgeted.keepsClaims _ notBack
  have room := budgeted.room _ notBack
  have fits := room_recorded stepped room
  have gateCallsEq : gateCallsOf next.trace = gateCallsOf config.trace ++
      replicate (config.state.recorded action).gateCalls action.1.now := by
    simp [traceEq, gateCallsOf, recorded]
  have claimsEq : claimsOf next.trace = claimsOf config.trace ++
      replicate (config.state.recorded action).claims action.1.now := by
    simp [traceEq, claimsOf, recorded]
  -- whatever is later than the whole trace is later than this step
  have waited : ∀ now, (∀ recording ∈ next.trace, recording.now ≤ now) → action.1.now ≤ now := by
    intro now later
    rw [traceEq] at later
    exact later _ (mem_append_right _ mem_cons_self)
  rw [budgeted.sameOptions] at fits
  constructor
  · exact sameOptions.trans budgeted.sameOptions
  · rw [gateCallsEq]
    exact budgeted.gateCalls.record (keepsGateCalls.room le_rfl fits.1)
  · rw [claimsEq]
    exact budgeted.claims.record (keepsClaims.room le_rfl fits.2.1)
  · rw [claimsEq]
    exact budgeted.burst.record (keepsClaims.room (min_le_right _ _) fits.2.2)
  · intro now later
    have follows := records.gateCallTimes
    rw [gateCallsEq]
    exact (follows.keeps keepsGateCalls).later (waited now later)
  · intro now later
    have follows := records.acceptedClaimTimes
    rw [claimsEq]
    exact (follows.keeps keepsClaims).later (waited now later)
  · intro now later
    have roomNext := records.room sameOptions
    exact (roomNext room).later (waited now later)

theorem budgeted_new (meetingId : String) (options : ClaimSchedulerOptions) :
    Budgeted options (Config.initial (new meetingId options)) where
  sameOptions := rfl
  gateCalls := bounded_nil _ _
  claims := bounded_nil _ _
  burst := bounded_nil _ _
  keepsGateCalls _ _ := keeps_self _ _ _
  keepsClaims _ _ := keeps_self _ _ _
  room _ _ := hasRoom_of_idle _ rfl

/-- In every run with constant options and a clock that does not go back, no hour holds more
claims or counted gate calls than its budget, and no window of the burst length, or of an
hour where that is shorter, holds more claims than the burst budget. -/
theorem budgets_kept (host : Host) (text : ClaimText) (meetingId : String)
    (options : ClaimSchedulerOptions) {config : Config ClaimScheduler Recording}
    (reaches : Reaches (recordingStep host text) steady (new meetingId options) config) :
    Bounded options.maxAcceptedClaimsPerHour hour (claimsOf config.trace) ∧
      Bounded options.maxBurstClaims (burstWindow options) (claimsOf config.trace) ∧
      Bounded options.maxGateCallsPerHour hour (gateCallsOf config.trace) := by
  have budgeted : Budgeted options config := by
    apply reaches.invariant (Budgeted options) (budgeted_new meetingId options)
    intro config next action _ holds advanced isSteady
    exact holds.step advanced isSteady
  exact ⟨budgeted.claims, budgeted.burst, budgeted.gateCalls⟩

section Recorded

instance : ∀ config action next, Decidable (steady config action next) :=
  fun _ _ _ => inferInstanceAs (Decidable (_ ∧ _))

/-- One claim is allowed in two hours. -/
def longBurstOptions : ClaimSchedulerOptions :=
  { gatewayClaimSchedulerOptions with maxBurstClaims := 1, burstWindowMs := 2 * hour }

def recordedCandidate (claim : String) : ClaimCandidate where
  exactQuote := claim
  normalizedClaim := claim
  contextTurnIds := []
  speakerId := none
  startMs := 0
  endMs := 0
  checkworthy := true
  consequenceScore := 1
  disputeLikelihoodScore := 1
  specificityScore := 1
  timeSensitive := false
  selectionRationale := ""
  semanticDuplicateKey := claim

/-- A claim is committed at the start, and another one a little more than an hour later. -/
def longBurstRun : List (Reading × Action) :=
  recordedSegments [.addFinalTurn recordedTurn, .timerFired, .beginResolved,
      .detectResolved (.candidates [recordedCandidate "first"]), .commitResolved] ++
    [.addFinalTurn { recordedTurn with revision := 1 }, .timerFired, .beginResolved,
      .detectResolved (.candidates [recordedCandidate "second"]), .commitResolved].map
        fun action => (⟨hour + 1, []⟩, action)

/-- With the usual options each of the claims lies in an hour of its own. -/
theorem budgets_kept_recordedRun :
    ∃ config, Reaches (recordingStep recordedHost recordedText) steady recordedScheduler config ∧
      ((within (claimsOf config.trace) 0 hour).length = 1 ∧
        (within (claimsOf config.trace) (hour + 1) hour).length = 1) ∧
      Bounded gatewayClaimSchedulerOptions.maxAcceptedClaimsPerHour hour (claimsOf config.trace) ∧
      Bounded gatewayClaimSchedulerOptions.maxBurstClaims
        (burstWindow gatewayClaimSchedulerOptions) (claimsOf config.trace) ∧
      Bounded gatewayClaimSchedulerOptions.maxGateCallsPerHour hour
        (gateCallsOf config.trace) := by
  obtain ⟨config, reaches, inWindows⟩ := exists_reaches_of_exec
    (recordingStep recordedHost recordedText) steady recordedScheduler
    (fun config => (within (claimsOf config.trace) 0 hour).length = 1 ∧
      (within (claimsOf config.trace) (hour + 1) hour).length = 1) longBurstRun
    (by decide +kernel) (by decide +kernel)
  exact ⟨config, reaches, inWindows, budgets_kept recordedHost recordedText "meeting-1"
    gatewayClaimSchedulerOptions reaches⟩

/-- Two claims lie in a burst window of two hours that may hold one. -/
theorem not_bounded_longBurstRun :
    ¬∀ (host : Host) (text : ClaimText) (meetingId : String) (options : ClaimSchedulerOptions)
        (config : Config ClaimScheduler Recording),
      Reaches (recordingStep host text) steady (new meetingId options) config →
        Bounded options.maxAcceptedClaimsPerHour hour (claimsOf config.trace) ∧
          Bounded options.maxBurstClaims options.burstWindowMs (claimsOf config.trace) ∧
          Bounded options.maxGateCallsPerHour hour (gateCallsOf config.trace) := by
  intro bounded
  obtain ⟨config, reaches, exceeded⟩ := exists_reaches_of_exec
    (recordingStep recordedHost recordedText) steady (new "meeting-1" longBurstOptions)
    (fun config => (within (claimsOf config.trace) 0 (2 * hour)).length = 2) longBurstRun
    (by decide +kernel) (by decide +kernel)
  have fits := (bounded recordedHost recordedText "meeting-1" longBurstOptions config reaches).2.1 0
  change (within (claimsOf config.trace) 0 (2 * hour)).length ≤ 1 at fits
  omega

end Recorded

end Obelus.Live.ClaimScheduler
