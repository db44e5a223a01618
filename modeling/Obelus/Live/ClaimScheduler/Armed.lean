import Obelus.Live.ClaimScheduler.Ledger

/-!
# The timer of the scheduler

A scheduler that waits has a flush timer, unless a flush was turned away because all gate
calls of the hour are used up.  Such a flush returns before the `finally` block that sets
the timer.
-/

namespace Obelus.Live.ClaimScheduler

open Obelus.Transition

/-- Turns or batches are pending, and no flush runs. -/
def Waits (scheduler : ClaimScheduler) : Prop :=
  scheduler.disposed = false ∧ scheduler.running = none ∧
    (scheduler.pendingTurns ≠ [] ∨ scheduler.pendingBatches ≠ [])

def Armed (scheduler : ClaimScheduler) : Prop :=
  scheduler.Waits → scheduler.timer.isSome = true

/-- All gate calls of the last hour are used up. -/
def UsedUp (scheduler : ClaimScheduler) (now : Number) : Prop :=
  scheduler.options.maxGateCallsPerHour ≤ (scheduler.pruneBudgets now).gateCallTimes.length

/-- A flush of this scheduler leaves with a timer: one is set, or there is nothing to wait
for, or there are gate calls left. -/
def MayFlush (scheduler : ClaimScheduler) (now : Number) : Prop :=
  scheduler.timer.isSome = true ∨ ¬scheduler.Waits ∨ ¬scheduler.UsedUp now

/-- The scheduler whose flush the action starts, if it starts one. -/
def flushedBy (host : Host) (scheduler : ClaimScheduler) : Action → Option ClaimScheduler
  | .flush => some scheduler
  | .timerFired => some { scheduler with timer := none }
  | .addFinalTurn turn =>
    if scheduler.acceptsTurn turn ∧
        scheduler.options.maxTurnsPerBatch ≤ scheduler.pendingTurns.length + 1 then
      some { scheduler with
        pendingTurns := sortPendingTurns host (scheduler.pendingTurns ++ [turn]) }
    else none
  | _ => none

/-- The action starts no flush that the limit turns away without a timer. -/
def KeepsTimer (host : Host) (scheduler : ClaimScheduler) (action : Reading × Action) : Prop :=
  ∀ flushed ∈ scheduler.flushedBy host action.2, flushed.MayFlush action.1.now

variable (scheduler : ClaimScheduler) (delayMs : Number) (host : Host)

theorem scheduleFlush_timer (active : scheduler.disposed = false) :
    (scheduler.scheduleFlush delayMs).timer.isSome = true := by
  rw [scheduleFlush, active]
  split
  · next isSet => exact isSet
  · rfl

theorem armed_scheduleFlush : (scheduler.scheduleFlush delayMs).Armed := by
  intro waits
  apply scheduleFlush_timer
  have active := waits.1
  rw [scheduleFlush] at active
  split at active
  · exact active
  · exact active

theorem armed_of_running {scheduler : ClaimScheduler} {frame : FlushFrame}
    (runs : scheduler.running = some frame) : scheduler.Armed := by
  rintro ⟨-, idle, -⟩
  rw [runs] at idle
  cases idle

theorem armed_finishFlush (retryDelay : Number) : (scheduler.finishFlush retryDelay).Armed := by
  rw [finishFlush]
  split
  · exact armed_scheduleFlush _ _
  · next notPending =>
    rintro ⟨active, -, pending⟩
    simp only [Bool.and_eq_true, Bool.not_eq_true', Bool.or_eq_true, List.isEmpty_eq_false_iff,
      not_and] at notPending active
    rcases pending with turns | batches
    · exact absurd (Or.inr turns) (notPending active)
    · exact absurd (Or.inl batches) (notPending active)

/-- A flush leaves with a timer just when it may. -/
theorem armed_flush_iff (scheduler : ClaimScheduler) (reading : Reading) :
    (scheduler.flush host reading).1.Armed ↔ scheduler.MayFlush reading.now := by
  rw [flush]
  split
  · next returns =>
    have notWaiting : ¬scheduler.Waits := by
      rintro ⟨active, idle, pending⟩
      rcases pending with turns | batches
      · simp [active, idle, turns] at returns
      · simp [active, idle, batches] at returns
    constructor
    · intro _
      exact Or.inr (Or.inl notWaiting)
    · intro _ waits
      exact absurd waits notWaiting
  · next goesOn =>
    have waits : scheduler.Waits := by
      simp only [Bool.or_eq_true, Bool.and_eq_true, List.isEmpty_iff, not_or, not_and,
        Bool.not_eq_true, Option.isSome_eq_false_iff, Option.isNone_iff_eq_none] at goesOn
      obtain ⟨⟨active, idle⟩, pending⟩ := goesOn
      refine ⟨active, idle, ?_⟩
      by_cases batches : scheduler.pendingBatches = []
      · exact Or.inl (pending batches)
      · exact Or.inr batches
    simp only
    split
    · next usedUp =>
      constructor
      · intro armed
        exact Or.inl (armed waits)
      · rintro (isSet | notWaiting | left)
        · intro _
          exact isSet
        · exact absurd waits notWaiting
        · exact absurd usedUp left
    · next left =>
      constructor
      · intro _
        exact Or.inr (Or.inr left)
      · intro _
        split
        · exact armed_of_running rfl
        · exact armed_of_running rfl

theorem length_sortPendingTurns (turns : List TranscriptTurn) :
    (sortPendingTurns host turns).length = turns.length :=
  (List.perm_insertionSort _ turns).length_eq

/-- A turn that is added starts a flush when the batch is full, and sets the timer otherwise. -/
theorem armed_addFinalTurn_iff {scheduler : ClaimScheduler} (turn : TranscriptTurn)
    (reading : Reading) (armed : scheduler.Armed) :
    (scheduler.addFinalTurn host turn reading).1.Armed ↔
      scheduler.KeepsTimer host (reading, .addFinalTurn turn) := by
  simp only [addFinalTurn, KeepsTimer, flushedBy, length_sortPendingTurns, List.length_append,
    List.length_singleton]
  by_cases accepts : scheduler.acceptsTurn turn = true
  · simp only [accepts, if_true, true_and]
    split
    · simpa using armed_flush_iff host
        { scheduler with
          pendingTurns := sortPendingTurns host (scheduler.pendingTurns ++ [turn]) } reading
    · simp [armed_scheduleFlush]
  · simp [accepts, armed]

theorem armed_recoverBatch {scheduler : ClaimScheduler} (batch : ClaimGateBatch)
    (armed : scheduler.Armed) : (scheduler.recoverBatch batch).1.Armed := by
  rw [recoverBatch]
  split
  · exact armed
  split
  · exact armed
  split
  · exact armed
  · exact armed_scheduleFlush _ _

theorem armed_setMaxGateCallsPerHour {scheduler : ClaimScheduler} (maxGateCallsPerHour : Number)
    (reading : Reading) (armed : scheduler.Armed) :
    (scheduler.setMaxGateCallsPerHour maxGateCallsPerHour reading).Armed := by
  rw [setMaxGateCallsPerHour]
  split
  · exact armed
  split
  · exact armed
  simp only
  split
  · exact armed_scheduleFlush _ _
  · intro waits
    exact armed waits

/-- From an armed scheduler a step leads to an armed one just when it keeps the timer. -/
theorem armed_step_iff {host : Host} {text : ClaimText} {scheduler next : ClaimScheduler}
    {action : Reading × Action} {emitted : List Observation} (armed : scheduler.Armed)
    (stepped : step host text scheduler action = some (next, emitted)) :
    next.Armed ↔ scheduler.KeepsTimer host action := by
  obtain ⟨reading, action⟩ := action
  have always : scheduler.flushedBy host action = none → next.Armed →
      (next.Armed ↔ scheduler.KeepsTimer host (reading, action)) := by
    intro noFlush holds
    constructor
    · intro _ flushed isFlushed
      rw [noFlush] at isFlushed
      cases isFlushed
    · intro _
      exact holds
  obtain ⟨_, steps, rfl, rfl⟩ := steps_of_step stepped
  cases steps with
  | addFinalTurn turn =>
    exact armed_addFinalTurn_iff host turn reading armed
  | recoverBatch batch =>
    exact always rfl (armed_recoverBatch batch armed)
  | flush =>
    simpa [KeepsTimer, flushedBy] using armed_flush_iff host scheduler reading
  | timerFired =>
    simpa [KeepsTimer, flushedBy] using
      armed_flush_iff host { scheduler with timer := none } reading
  | setMaxGateCallsPerHour maxGateCallsPerHour =>
    exact always rfl (armed_setMaxGateCallsPerHour maxGateCallsPerHour reading armed)
  | dispose =>
    apply always rfl
    intro waits
    cases waits.1
  | beginResolved =>
    apply always rfl
    rw [beginResolved]
    split
    · exact armed_finishFlush _ _
    · exact armed_of_running rfl
  | detectResolved =>
    apply always rfl
    unfold detectResolved
    split
    · exact armed_finishFlush _ _
    · exact armed_of_running rfl
  | commitResolved =>
    apply always rfl
    rw [commitResolved]
    split
    · exact armed_finishFlush _ _
    · exact armed_finishFlush _ _
  | rejected =>
    apply always rfl
    rw [rejected]
    split
    · exact armed_finishFlush _ _
    · exact armed_finishFlush _ _

/-- The guard of the runs in which no flush is turned away without a timer. -/
def keepsTimer (host : Host) : Guard ClaimScheduler (Reading × Action) Observation :=
  fun config action _ => KeepsTimer host config.state action

instance (scheduler : ClaimScheduler) : Decidable scheduler.Waits :=
  inferInstanceAs (Decidable (_ ∧ _))

instance (scheduler : ClaimScheduler) (now : Number) : Decidable (scheduler.MayFlush now) :=
  inferInstanceAs (Decidable (_ ∨ ¬scheduler.Waits ∨ ¬(_ ≤ _)))

instance (host : Host) : ∀ config action next, Decidable (keepsTimer host config action next) :=
  fun config action _ => inferInstanceAs (Decidable (∀ flushed ∈
    flushedBy host config.state action.2, flushed.MayFlush action.1.now))

/-- Every list of actions keeps the scheduler armed throughout exactly if none of them starts
a flush that finds the gate calls used up and leaves work behind without a timer. -/
theorem armed_throughout_iff (host : Host) (text : ClaimText) (meetingId : String)
    (options : ClaimSchedulerOptions) {actions : List (Reading × Action)}
    (executed : Admissible (step host text) (fun _ _ _ => True)
      (Config.initial (new meetingId options)) actions) :
    Throughout (step host text) (fun config => config.state.Armed)
        (Config.initial (new meetingId options)) actions ↔
      Admissible (step host text) (keepsTimer host)
        (Config.initial (new meetingId options)) actions := by
  apply throughout_iff_admissible _ _ executed
  · intro config next action armed advanced _
    obtain ⟨emitted, stepped, -⟩ := advance_eq_some_iff.mp advanced
    exact armed_step_iff armed stepped
  · rintro ⟨-, -, turns | batches⟩
    · exact absurd rfl turns
    · exact absurd rfl batches

section Recorded

theorem armed_throughout_recordedRun :
    Throughout (step recordedHost recordedText) (fun config => config.state.Armed)
      (Config.initial (new "meeting-1" gatewayClaimSchedulerOptions)) recordedRun :=
  (armed_throughout_iff recordedHost recordedText "meeting-1" gatewayClaimSchedulerOptions
    (by decide)).mpr (by decide)

/-- One gate call an hour is allowed.  The first turn uses it up, and the flush for the next
revision of the turn is turned away. -/
def limitedRun : List (Reading × Action) :=
  recordedSegments [.setMaxGateCallsPerHour 1, .addFinalTurn recordedTurn, .timerFired,
    .beginResolved, .detectResolved (.candidates []), .commitResolved,
    .addFinalTurn { recordedTurn with revision := 1 }, .timerFired]

/-- After the last step a turn waits, no flush runs and no timer is set. -/
theorem not_armed_limitedRun : ∃ config ∈ exec (step recordedHost recordedText)
        (Config.initial (new "meeting-1" gatewayClaimSchedulerOptions)) limitedRun,
      config.state.Waits ∧ config.state.timer = none := by
  decide +kernel

end Recorded

end Obelus.Live.ClaimScheduler
