import Obelus.Live.ClaimScheduler.Core

/-!
# Where the work of a scheduler stands

A ledger is the abstract view of a claim scheduler: the turns and batches that
wait, the batch a running `flush` holds, and the history of what was taken on
and committed.  Work moves between these places in six ways.  Every synchronous
segment of the faithful model is a sequence of such moves, so invariants of the
scheduler are proved move by move.
-/

namespace Obelus.Live.ClaimScheduler

open Obelus.Data List
open Obelus.Transition
open Relation

structure Ledger where
  turns : List ClaimGateTurnSnapshot
  batches : List ClaimGateBatch
  held : Option ClaimGateBatch
  completed : JsSet String
  accepted : List ClaimGateTurnSnapshot
  recovered : List ClaimGateBatch
  committed : List ClaimGateBatch

namespace Ledger

/-- Every batch of the ledger: waiting, held or committed. -/
def allBatches (ledger : Ledger) : List ClaimGateBatch :=
  ledger.batches ++ (ledger.held.toList ++ ledger.committed)

end Ledger

/-- What has to hold of a ledger for new work to be taken on and for a batch to
be committed. -/
structure Admission where
  turn : Ledger → ClaimGateTurnSnapshot → Prop
  batch : Ledger → ClaimGateBatch → Prop
  commit : Ledger → ClaimGateBatch → Prop

/-- Admission of everything. -/
def Admission.all : Admission :=
  ⟨fun _ _ => True, fun _ _ => True, fun _ _ => True⟩

inductive Move (admission : Admission) : Ledger → Ledger → Prop
  | accept {ledger : Ledger} {turn : ClaimGateTurnSnapshot}
      {turns : List ClaimGateTurnSnapshot} :
      admission.turn ledger turn → turns.Perm (ledger.turns ++ [turn]) →
      Move admission ledger
        { ledger with turns, accepted := ledger.accepted ++ [turn] }
  | recover {ledger : Ledger} {batch : ClaimGateBatch} :
      admission.batch ledger batch →
      Move admission ledger
        { ledger with
          batches := ledger.batches ++ [batch]
          recovered := ledger.recovered ++ [batch] }
  | takeBatch {ledger : Ledger} {batch : ClaimGateBatch} {rest : List ClaimGateBatch} :
      ledger.held = none → ledger.batches = batch :: rest →
      Move admission ledger { ledger with batches := rest, held := some batch }
  | takeTurns {ledger : Ledger} {batch : ClaimGateBatch}
      {rest : List ClaimGateTurnSnapshot} :
      ledger.held = none → ledger.turns = batch.turns ++ rest →
      Move admission ledger { ledger with turns := rest, held := some batch }
  | commit {ledger : Ledger} {batch : ClaimGateBatch} :
      ledger.held = some batch → admission.commit ledger batch →
      Move admission ledger
        { ledger with
          held := none
          completed := batch.turns.foldl markTurnRevisionCompleted ledger.completed
          committed := ledger.committed ++ [batch] }
  | giveBack {ledger : Ledger} {batch : ClaimGateBatch} :
      ledger.held = some batch →
      Move admission ledger
        { ledger with held := none, batches := batch :: ledger.batches }

/-- Finitely many moves. -/
abbrev Moves (admission : Admission) : Ledger → Ledger → Prop :=
  ReflTransGen (Move admission)

/-- An invariant of single moves is an invariant of finitely many. -/
theorem Moves.preserve {admission : Admission} {property : Ledger → Prop}
    (preserved : ∀ ⦃ledger next⦄, Move admission ledger next → property ledger → property next)
    {ledger next : Ledger} (moves : Moves admission ledger next)
    (holds : property ledger) : property next := by
  induction moves with
  | refl => exact holds
  | tail _ move ih => exact preserved move ih

/-! ## The ledger of a configuration -/

def acceptedTurn? : Observation → Option ClaimGateTurnSnapshot
  | .accepted turn => some turn
  | _ => none

def recoveredBatch? : Observation → Option ClaimGateBatch
  | .recovered batch => some batch
  | _ => none

def committedBatch? : Observation → Option ClaimGateBatch
  | .committed batch => some batch
  | _ => none

/-- The ledger of a scheduler after the observations of `trace`. -/
def Ledger.of (scheduler : ClaimScheduler) (trace : List Observation) : Ledger where
  turns := scheduler.pendingTurns.map TranscriptTurn.toSnapshot
  batches := scheduler.pendingBatches.map (·.toClaimGateBatch)
  held := scheduler.running.map (·.batch.toClaimGateBatch)
  completed := scheduler.completedTurnRevisions
  accepted := trace.filterMap acceptedTurn?
  recovered := trace.filterMap recoveredBatch?
  committed := trace.filterMap committedBatch?

def ledger (config : Config ClaimScheduler Observation) : Ledger :=
  Ledger.of config.state config.trace

section Projections

variable (scheduler : ClaimScheduler) (trace : List Observation)

@[simp]
theorem Ledger.of_scheduleFlush (delayMs : Number) :
    Ledger.of (scheduler.scheduleFlush delayMs) trace = Ledger.of scheduler trace := by
  unfold scheduleFlush
  split <;> rfl

theorem Ledger.of_finishFlush (retryDelay : Number) :
    Ledger.of (scheduler.finishFlush retryDelay) trace =
      { Ledger.of scheduler trace with held := none } := by
  unfold finishFlush
  dsimp only
  split
  · rw [Ledger.of_scheduleFlush]
    rfl
  · rfl

/-- Observations of callbacks leave no entry in the ledger. -/
theorem Ledger.of_append_callback {observations : List Observation}
    (callbacks : ∀ observation ∈ observations, acceptedTurn? observation = none ∧
      recoveredBatch? observation = none ∧ committedBatch? observation = none) :
    Ledger.of scheduler (trace ++ observations) = Ledger.of scheduler trace := by
  have noTurns : observations.filterMap acceptedTurn? = [] :=
    filterMap_eq_nil_iff.mpr fun observation member => (callbacks observation member).1
  have noBatches : observations.filterMap recoveredBatch? = [] :=
    filterMap_eq_nil_iff.mpr fun observation member => (callbacks observation member).2.1
  have noCommits : observations.filterMap committedBatch? = [] :=
    filterMap_eq_nil_iff.mpr fun observation member => (callbacks observation member).2.2
  simp [Ledger.of, filterMap_append, noTurns, noBatches, noCommits]

end Projections

/-! ## Segments are sequences of moves -/

section Segments

variable (admission : Admission) (host : Host) (text : ClaimText)
  (scheduler : ClaimScheduler) (trace : List Observation) (reading : Reading)

theorem callDetect_ledger (batch : ScheduledClaimGateBatch) :
    Ledger.of (scheduler.callDetect batch reading).1
        (trace ++ (scheduler.callDetect batch reading).2) =
      { Ledger.of scheduler trace with held := some batch.toClaimGateBatch } := by
  rw [Ledger.of_append_callback]
  · rfl
  · simp [callDetect, acceptedTurn?, recoveredBatch?, committedBatch?]

variable {batch : ScheduledClaimGateBatch} {await : FlushAwait}

/-- What `nextBatch` takes is a waiting batch or the first waiting turns. -/
theorem nextBatch_move {next : ClaimScheduler} (idle : scheduler.running = none)
    (taken : scheduler.nextBatch host = (batch, next)) : Move admission (Ledger.of scheduler trace)
      { Ledger.of next trace with held := some batch.toClaimGateBatch } := by
  have heldNone : (Ledger.of scheduler trace).held = none := by simp [Ledger.of, idle]
  unfold nextBatch at taken
  split at taken
  · rename_i pending rest batchesEq
    cases taken
    have waiting : (Ledger.of scheduler trace).batches =
        batch.toClaimGateBatch :: rest.map (·.toClaimGateBatch) := by
      simp [Ledger.of, batchesEq]
    exact Move.takeBatch heldNone waiting
  · cases taken
    refine Move.takeTurns heldNone ?_
    simp only [Ledger.of, createClaimGateBatch_turns]
    rw [← map_append, take_append_drop]

theorem flush_moves : Moves admission (Ledger.of scheduler trace)
      (Ledger.of (scheduler.flush host reading).1
        (trace ++ (scheduler.flush host reading).2)) := by
  unfold flush
  split
  · simpa using ReflTransGen.refl
  · rename_i enabled
    have idle : scheduler.running = none := by
      simp only [Bool.or_eq_true, not_or] at enabled
      simpa using enabled.1.2
    dsimp only
    split
    · rw [Ledger.of_append_callback]
      · exact ReflTransGen.refl
      · simp [acceptedTurn?, recoveredBatch?, committedBatch?]
    · rcases taken : (scheduler.pruneBudgets reading.now).nextBatch host with ⟨batch, next⟩
      have move := nextBatch_move admission host (scheduler.pruneBudgets reading.now) trace
        idle taken
      split
      · rw [callDetect_ledger]
        exact ReflTransGen.single move
      · rw [Ledger.of_append_callback]
        · exact ReflTransGen.single move
        · simp [acceptedTurn?, recoveredBatch?, committedBatch?]

theorem beginResolved_ledger (held : scheduler.running = some ⟨batch, await⟩)
    (live : scheduler.disposed = false) : Ledger.of (scheduler.beginResolved batch reading).1
        (trace ++ (scheduler.beginResolved batch reading).2) =
      Ledger.of scheduler trace := by
  simp only [beginResolved, live, Bool.false_eq_true, if_false, callDetect_ledger]
  simp [Ledger.of, held]

theorem detectResolved_ledger (existingClaims : List Claim) (detection : Detection)
    (held : scheduler.running = some ⟨batch, await⟩) (live : scheduler.disposed = false) :
    Ledger.of (scheduler.detectResolved text batch existingClaims detection reading).1
        (trace ++ (scheduler.detectResolved text batch existingClaims detection reading).2) =
      Ledger.of scheduler trace := by
  simp only [detectResolved, live, Bool.false_eq_true, if_false]
  rw [Ledger.of_append_callback]
  · cases detection <;> simp only [Ledger.of, held] <;> split <;> rfl
  · simp [acceptedTurn?, recoveredBatch?, committedBatch?]

theorem commitResolved_move (accepted : List ClaimCandidate) (rateLimited : Bool)
    (held : scheduler.running = some ⟨batch, await⟩) (live : scheduler.disposed = false)
    (admitted : admission.commit (Ledger.of scheduler trace) batch.toClaimGateBatch) :
    Move admission (Ledger.of scheduler trace)
      (Ledger.of (scheduler.commitResolved batch accepted rateLimited reading).1
        (trace ++ (scheduler.commitResolved batch accepted rateLimited reading).2)) := by
  have heldEq : (Ledger.of scheduler trace).held = some batch.toClaimGateBatch := by
    simp [Ledger.of, held]
  have target : Ledger.of (scheduler.commitResolved batch accepted rateLimited reading).1
        (trace ++ (scheduler.commitResolved batch accepted rateLimited reading).2) =
      { Ledger.of scheduler trace with
        held := none
        completed := batch.turns.foldl markTurnRevisionCompleted
          (Ledger.of scheduler trace).completed
        committed := (Ledger.of scheduler trace).committed ++ [batch.toClaimGateBatch] } := by
    simp only [commitResolved, live, Bool.false_eq_true, if_false, Ledger.of_finishFlush]
    simp [Ledger.of, acceptedTurn?, recoveredBatch?, committedBatch?]
  rw [target]
  exact Move.commit heldEq admitted

theorem rejected_move (held : scheduler.running = some ⟨batch, await⟩)
    (live : scheduler.disposed = false) : Move admission (Ledger.of scheduler trace)
      (Ledger.of (scheduler.rejected batch).1 (trace ++ (scheduler.rejected batch).2)) := by
  have heldEq : (Ledger.of scheduler trace).held = some batch.toClaimGateBatch := by
    simp [Ledger.of, held]
  have target : Ledger.of (scheduler.rejected batch).1 (trace ++ (scheduler.rejected batch).2) =
      { Ledger.of scheduler trace with
        held := none
        batches := batch.toClaimGateBatch :: (Ledger.of scheduler trace).batches } := by
    simp only [rejected, live, Bool.false_eq_true, if_false, Ledger.of_finishFlush]
    simp [Ledger.of, acceptedTurn?, recoveredBatch?, committedBatch?]
  rw [target]
  exact Move.giveBack heldEq

/-- The guards of `recoverBatch`. -/
def acceptsBatch (scheduler : ClaimScheduler) (batch : ClaimGateBatch) : Prop :=
  scheduler.disposed = false ∧ batch.meetingId = scheduler.meetingId ∧ batch.turns ≠ [] ∧
    scheduler.hasBatch batch.id = false

instance (batch : ClaimGateBatch) : Decidable (scheduler.acceptsBatch batch) :=
  inferInstanceAs (Decidable (_ ∧ _ ∧ _ ∧ _))

theorem recoverBatch_moves {batch : ClaimGateBatch}
    (admitted : scheduler.acceptsBatch batch → admission.batch (Ledger.of scheduler trace) batch) :
    Moves admission (Ledger.of scheduler trace)
      (Ledger.of (scheduler.recoverBatch batch).1
        (trace ++ (scheduler.recoverBatch batch).2)) := by
  unfold recoverBatch
  split
  · simpa using ReflTransGen.refl
  split
  · simpa using ReflTransGen.refl
  split
  · simpa using ReflTransGen.refl
  · rename_i live sameMeeting unknown
    have accepts : scheduler.acceptsBatch batch := by
      simp only [Bool.or_eq_true, decide_eq_true_eq, not_or, List.isEmpty_iff,
        not_not] at sameMeeting
      exact ⟨by simpa using live, sameMeeting.1, sameMeeting.2, by simpa using unknown⟩
    rw [Ledger.of_scheduleFlush]
    refine ReflTransGen.single ?_
    have target : Ledger.of
          { scheduler with
            knownBatchIds := scheduler.knownBatchIds.add batch.id
            pendingBatches := scheduler.pendingBatches ++
              [ScheduledClaimGateBatch.mk { batch with turns := batch.turns.map snapshotTurn }
                true] }
          (trace ++ [.recovered { batch with turns := batch.turns.map snapshotTurn }]) =
        { Ledger.of scheduler trace with
          batches := (Ledger.of scheduler trace).batches ++ [batch]
          recovered := (Ledger.of scheduler trace).recovered ++ [batch] } := by
      simp [Ledger.of, acceptedTurn?, recoveredBatch?, committedBatch?, snapshotTurn_eq_id]
    rw [target]
    exact Move.recover (admitted accepts)

theorem addFinalTurn_moves {turn : TranscriptTurn}
    (admitted : scheduler.acceptsTurn turn = true →
      admission.turn (Ledger.of scheduler trace) turn.toSnapshot) :
    Moves admission (Ledger.of scheduler trace)
      (Ledger.of (scheduler.addFinalTurn host turn reading).1
        (trace ++ (scheduler.addFinalTurn host turn reading).2)) := by
  unfold addFinalTurn
  split
  · rename_i accepts
    have sorted : ((sortPendingTurns host (scheduler.pendingTurns ++ [turn])).map
        TranscriptTurn.toSnapshot).Perm
          ((Ledger.of scheduler trace).turns ++ [turn.toSnapshot]) := by
      have perm := (perm_insertionSort
        (fun left right => comparePendingTurns host left right ≤ 0)
        (scheduler.pendingTurns ++ [turn])).map TranscriptTurn.toSnapshot
      simpa only [sortPendingTurns, Ledger.of, map_append, map_cons, map_nil] using perm
    have target : Ledger.of
          { scheduler with
            pendingTurns := sortPendingTurns host (scheduler.pendingTurns ++ [turn]) }
          (trace ++ [.accepted turn.toSnapshot]) =
        { Ledger.of scheduler trace with
          turns := (sortPendingTurns host (scheduler.pendingTurns ++ [turn])).map
            TranscriptTurn.toSnapshot
          accepted := (Ledger.of scheduler trace).accepted ++ [turn.toSnapshot] } := by
      simp [Ledger.of, acceptedTurn?, recoveredBatch?, committedBatch?]
    have accept := Move.accept (admitted accepts) sorted
    rw [← target] at accept
    dsimp only
    split
    · have flushed := flush_moves admission host
        { scheduler with
          pendingTurns := sortPendingTurns host (scheduler.pendingTurns ++ [turn]) }
        (trace ++ [.accepted turn.toSnapshot]) reading
      rw [append_assoc] at flushed
      exact ReflTransGen.head accept flushed
    · rw [Ledger.of_scheduleFlush]
      exact ReflTransGen.single accept
  · simpa using ReflTransGen.refl

end Segments

variable {host : Host} {text : ClaimText} {config : Config ClaimScheduler Observation}
  {reading : Reading} {action : Action}

/-- Every segment of a scheduler that is not disposed of moves work as the
ledger allows, provided the admission holds where work is taken on or
committed. -/
theorem advance_moves (admission : Admission) {next : Config ClaimScheduler Observation}
    (live : config.state.disposed = false)
    (advanced : advance (step host text) config (reading, action) = some next)
    (undisposed : action ≠ .dispose)
    (turns : ∀ turn, action = .addFinalTurn turn → config.state.acceptsTurn turn = true →
      admission.turn (ledger config) turn.toSnapshot)
    (batches : ∀ batch, action = .recoverBatch batch → config.state.acceptsBatch batch →
      admission.batch (ledger config) batch)
    (commits : ∀ batch accepted rateLimited, action = .commitResolved →
      config.state.running = some ⟨batch, .commitBatch accepted rateLimited⟩ →
      admission.commit (ledger config) batch.toClaimGateBatch) :
    Moves admission (ledger config) (ledger next) := by
  obtain ⟨emitted, stepped, traceEq⟩ := advance_eq_some_iff.mp advanced
  rcases config with ⟨scheduler, trace⟩
  rcases next with ⟨scheduler', trace'⟩
  obtain ⟨_, steps, rfl, rfl⟩ := steps_of_step stepped
  subst traceEq
  simp only [ledger] at turns batches commits ⊢
  cases steps with
  | addFinalTurn turn =>
    exact addFinalTurn_moves admission host scheduler trace reading (turns turn rfl)
  | recoverBatch batch => exact recoverBatch_moves admission scheduler trace (batches batch rfl)
  | flush => exact flush_moves admission host scheduler trace reading
  | timerFired => exact flush_moves admission host { scheduler with timer := none } trace reading
  | setMaxGateCallsPerHour limit =>
    have unchanged : Ledger.of (scheduler.setMaxGateCallsPerHour limit reading) trace =
        Ledger.of scheduler trace := by
      unfold setMaxGateCallsPerHour
      split
      · rfl
      split
      · rfl
      dsimp only
      split
      · rw [Ledger.of_scheduleFlush]
        rfl
      · rfl
    rw [append_nil, unchanged]
  | dispose => exact absurd rfl undisposed
  | beginResolved runs => rw [beginResolved_ledger scheduler trace reading runs live]
  | detectResolved runs detection =>
    rw [detectResolved_ledger text scheduler trace reading _ detection runs live]
  | commitResolved runs =>
    exact ReflTransGen.single (commitResolved_move admission scheduler trace reading _ _ runs live
      (commits _ _ _ rfl runs))
  | rejected runs =>
    exact ReflTransGen.single (rejected_move admission scheduler trace runs live)

/-! ## Being disposed of -/

variable (scheduler : ClaimScheduler)

@[simp]
theorem scheduleFlush_disposed (delayMs : Number) :
    (scheduler.scheduleFlush delayMs).disposed = scheduler.disposed := by
  unfold scheduleFlush
  split <;> rfl

@[simp]
theorem finishFlush_disposed (retryDelay : Number) :
    (scheduler.finishFlush retryDelay).disposed = scheduler.disposed := by
  unfold finishFlush
  dsimp only
  split <;> simp

@[simp]
theorem pruneBudgets_disposed (now : Number) :
    (scheduler.pruneBudgets now).disposed = scheduler.disposed :=
  rfl

@[simp]
theorem nextBatch_disposed (host : Host) :
    (scheduler.nextBatch host).2.disposed = scheduler.disposed := by
  unfold nextBatch
  split <;> rfl

@[simp]
theorem flush_disposed (host : Host) (reading : Reading) :
    (scheduler.flush host reading).1.disposed = scheduler.disposed := by
  unfold flush
  dsimp only
  split
  · rfl
  split
  · rfl
  split <;> simp [callDetect]

/-- Only `dispose` disposes of a scheduler. -/
theorem disposed_of_advance {next : Config ClaimScheduler Observation}
    (advanced : advance (step host text) config (reading, action) = some next)
    (undisposed : action ≠ .dispose) : next.state.disposed = config.state.disposed := by
  obtain ⟨emitted, stepped, -⟩ := advance_eq_some_iff.mp advanced
  obtain ⟨_, steps, isNext, -⟩ := steps_of_step stepped
  rw [isNext]
  cases steps with
  | addFinalTurn turn =>
    rw [addFinalTurn]
    split
    · dsimp only
      split <;> simp
    · rfl
  | recoverBatch batch =>
    rw [recoverBatch]
    split
    · rfl
    split
    · rfl
    split
    · rfl
    · simp
  | flush => exact flush_disposed _ _ _
  | timerFired => exact flush_disposed _ _ _
  | setMaxGateCallsPerHour limit =>
    rw [setMaxGateCallsPerHour]
    dsimp only
    split
    · rfl
    split
    · rfl
    split <;> simp
  | dispose => exact absurd rfl undisposed
  | beginResolved =>
    rw [beginResolved]
    split <;> simp [callDetect]
  | detectResolved runs detection =>
    unfold detectResolved
    split
    · simp
    · cases detection <;> dsimp only <;> split <;> rfl
  | commitResolved =>
    rw [commitResolved]
    split <;> simp
  | rejected =>
    rw [rejected]
    split <;> simp

/-!
## Accepted work is retained

Unless a scheduler is disposed of, a turn it accepted and a batch it recovered
stay in one of its collections until the batch that carries them is committed.
A callback that fails puts the whole batch back at the head of the queue.
-/

/-! ## Retention in a ledger -/

namespace Ledger

variable {ledger : Ledger}

theorem mem_allBatches_iff {batch : ClaimGateBatch} : batch ∈ ledger.allBatches ↔
      batch ∈ ledger.batches ∨ ledger.held = some batch ∨ batch ∈ ledger.committed := by
  simp [allBatches, Option.mem_toList]

/-- Everything taken on is still waiting, held or committed. -/
structure Retains (ledger : Ledger) : Prop where
  turns : ∀ turn ∈ ledger.accepted,
    turn ∈ ledger.turns ∨ ∃ batch ∈ ledger.allBatches, turn ∈ batch.turns
  batches : ∀ batch ∈ ledger.recovered, batch ∈ ledger.allBatches

/-- A move that keeps the waiting turns or puts them into a batch, and keeps
every batch, retains what was retained. -/
theorem Retains.of_subset {next : Ledger} (retains : ledger.Retains)
    (sameAccepted : next.accepted = ledger.accepted)
    (sameRecovered : next.recovered = ledger.recovered) (turns : ∀ turn ∈ ledger.turns,
      turn ∈ next.turns ∨ ∃ batch ∈ next.allBatches, turn ∈ batch.turns)
    (batches : ∀ batch ∈ ledger.allBatches, batch ∈ next.allBatches) : next.Retains where
  turns turn member := by
    rw [sameAccepted] at member
    rcases retains.turns turn member with waiting | ⟨batch, inLedger, inBatch⟩
    · exact turns turn waiting
    · exact Or.inr ⟨batch, batches batch inLedger, inBatch⟩
  batches batch member := by
    rw [sameRecovered] at member
    exact batches batch (retains.batches batch member)

theorem retains_of_move {admission : Admission} {next : Ledger} (move : Move admission ledger next)
    (retains : ledger.Retains) : next.Retains := by
  cases move with
  | accept _ perm =>
    refine ⟨?_, retains.batches⟩
    intro turn member
    rcases mem_append.mp member with before | new
    · rcases retains.turns turn before with waiting | inBatch
      · exact Or.inl (perm.mem_iff.mpr (mem_append_left _ waiting))
      · exact Or.inr inBatch
    · exact Or.inl (perm.mem_iff.mpr (mem_append_right _ new))
  | @recover recovered _ =>
    have kept : ∀ batch ∈ ledger.allBatches, batch ∈ Ledger.allBatches
        { ledger with
          batches := ledger.batches ++ [recovered]
          recovered := ledger.recovered ++ [recovered] } := by
      intro batch member
      simp only [mem_allBatches_iff, mem_append] at member ⊢
      tauto
    refine ⟨?_, ?_⟩
    · intro turn member
      rcases retains.turns turn member with waiting | ⟨batch, inLedger, inBatch⟩
      · exact Or.inl waiting
      · exact Or.inr ⟨batch, kept batch inLedger, inBatch⟩
    · intro batch member
      rcases mem_append.mp member with before | new
      · exact kept batch (retains.batches batch before)
      · rw [mem_allBatches_iff]
        exact Or.inl (mem_append_right _ new)
  | takeBatch idle waiting =>
    refine retains.of_subset rfl rfl (fun turn member => Or.inl member) ?_
    intro batch member
    simp only [mem_allBatches_iff, idle, waiting, mem_cons] at member ⊢
    rcases member with (rfl | member) | held | committed
    · exact Or.inr (Or.inl rfl)
    · exact Or.inl member
    · contradiction
    · exact Or.inr (Or.inr committed)
  | @takeTurns taken _ idle waiting =>
    refine retains.of_subset rfl rfl ?_ ?_
    · intro turn member
      rw [waiting] at member
      rcases mem_append.mp member with inBatch | left
      · exact Or.inr ⟨taken, by simp [mem_allBatches_iff], inBatch⟩
      · exact Or.inl left
    · intro batch member
      simp only [mem_allBatches_iff, idle] at member ⊢
      rcases member with member | held | committed
      · exact Or.inl member
      · contradiction
      · exact Or.inr (Or.inr committed)
  | commit held _ =>
    refine retains.of_subset rfl rfl (fun turn member => Or.inl member) ?_
    intro batch member
    simp only [mem_allBatches_iff, held, mem_append, mem_singleton, Option.some.injEq] at member ⊢
    rcases member with member | rfl | committed
    · exact Or.inl member
    · exact Or.inr (Or.inr (Or.inr rfl))
    · exact Or.inr (Or.inr (Or.inl committed))
  | giveBack held =>
    refine retains.of_subset rfl rfl (fun turn member => Or.inl member) ?_
    intro batch member
    simp only [mem_allBatches_iff, held, mem_cons, Option.some.injEq] at member ⊢
    rcases member with member | rfl | committed
    · exact Or.inl (Or.inr member)
    · exact Or.inl (Or.inl rfl)
    · exact Or.inr (Or.inr committed)

/-- The turns taken on, alone or in batches, are those of all places, each as often. -/
def Conserves (ledger : Ledger) : Prop :=
  (ledger.accepted ++ ledger.recovered.flatMap (·.turns)).Perm
    (ledger.turns ++ ledger.allBatches.flatMap (·.turns))

theorem conserves_of_move {admission : Admission} {next : Ledger}
    (move : Move admission ledger next) (conserves : ledger.Conserves) : next.Conserves := by
  classical
  simp only [Conserves, allBatches, perm_iff_count, flatMap_append, count_append] at conserves ⊢
  intro turn
  have before := conserves turn
  cases move with
  | accept _ perm =>
    have sorted := perm.count_eq turn
    simp only [count_append] at sorted ⊢
    omega
  | recover _ =>
    simp only [flatMap_append, count_append]
    omega
  | takeBatch idle waiting =>
    simp only [idle, waiting, Option.toList, flatMap_cons, count_append] at before ⊢
    omega
  | takeTurns idle waiting =>
    simp only [idle, waiting, Option.toList, flatMap_cons, count_append] at before ⊢
    omega
  | commit held _ =>
    simp only [held, Option.toList, flatMap_append, flatMap_nil, count_append,
      count_nil] at before ⊢
    omega
  | giveBack held =>
    simp only [held, Option.toList, flatMap_cons, count_append] at before ⊢
    omega

end Ledger

/-! ## Retention in runs -/

/-- The runs in which the scheduler is never disposed of. -/
def undisposed : Guard ClaimScheduler (Reading × Action) Observation :=
  fun _ action _ => action.2 ≠ .dispose

instance : ∀ config action next, Decidable (undisposed config action next) :=
  fun _ action _ => inferInstanceAs (Decidable (action.2 ≠ .dispose))

section Runs

variable {host : Host} {text : ClaimText} {meetingId : String} {options : ClaimSchedulerOptions}
  {config : Config ClaimScheduler Observation}

theorem live_of_reaches
    (reaches : Reaches (step host text) undisposed (new meetingId options) config) :
    config.state.disposed = false := by
  refine reaches.invariant (fun config => config.state.disposed = false) rfl ?_
  intro config next action _ live advanced admitted
  rw [disposed_of_advance advanced admitted, live]

theorem ledger_retains
    (reaches : Reaches (step host text) undisposed (new meetingId options) config) :
    (ledger config).Retains := by
  refine reaches.invariant (fun config => (ledger config).Retains) ⟨by simp [ledger,
    Ledger.of], by simp [ledger, Ledger.of]⟩ ?_
  intro config next action before retains advanced admitted
  have moves := advance_moves .all (live_of_reaches before) advanced admitted
    (fun _ _ _ => trivial) (fun _ _ _ => trivial) (fun _ _ _ _ _ => trivial)
  exact moves.preserve (fun _ _ => Ledger.retains_of_move) retains

/-- Without `dispose`, no turn is lost, doubled or made up on its way through the scheduler. -/
theorem turns_conserved
    (reaches : Reaches (step host text) undisposed (new meetingId options) config) :
    (ledger config).Conserves := by
  refine reaches.invariant (fun config => (ledger config).Conserves) ?_ ?_
  · exact .nil
  · intro config next action before conserves advanced admitted
    have moves := advance_moves .all (live_of_reaches before) advanced admitted
      (fun _ _ _ => trivial) (fun _ _ _ => trivial) (fun _ _ _ _ _ => trivial)
    exact moves.preserve (fun _ _ => Ledger.conserves_of_move) conserves

end Runs

/-- Where the source can keep a turn it accepted. -/
def RetainsTurn (config : Config ClaimScheduler Observation) (turn : ClaimGateTurnSnapshot) :
    Prop :=
  (∃ pending ∈ config.state.pendingTurns, pending.toSnapshot = turn) ∨
    (∃ batch ∈ config.state.pendingBatches, turn ∈ batch.turns) ∨
    (∃ frame, config.state.running = some frame ∧ turn ∈ frame.batch.turns) ∨
    ∃ batch, .committed batch ∈ config.trace ∧ turn ∈ batch.turns

/-- Where the source can keep a batch it recovered. -/
def RetainsBatch (config : Config ClaimScheduler Observation) (batch : ClaimGateBatch) : Prop :=
  (∃ pending ∈ config.state.pendingBatches, pending.toClaimGateBatch = batch) ∨
    (∃ frame, config.state.running = some frame ∧ frame.batch.toClaimGateBatch = batch) ∨
    .committed batch ∈ config.trace

variable {config : Config ClaimScheduler Observation} {batch : ClaimGateBatch}

theorem mem_committed_iff :
    batch ∈ (ledger config).committed ↔ .committed batch ∈ config.trace := by
  simp only [ledger, Ledger.of, mem_filterMap]
  constructor
  · rintro ⟨observation, member, committed⟩
    cases observation <;> simp only [committedBatch?, Option.some.injEq, reduceCtorEq] at committed
    rwa [← committed]
  · intro member
    exact ⟨_, member, rfl⟩

theorem mem_allBatches_ledger_iff :
    batch ∈ (ledger config).allBatches ↔ RetainsBatch config batch := by
  rw [Ledger.mem_allBatches_iff, mem_committed_iff]
  simp [RetainsBatch, ledger, Ledger.of]

theorem finishFlush_pending (scheduler : ClaimScheduler) (retryDelay : Number) :
    (scheduler.finishFlush retryDelay).pendingBatches = scheduler.pendingBatches ∧
      (scheduler.finishFlush retryDelay).pendingTurns = scheduler.pendingTurns := by
  unfold finishFlush scheduleFlush
  dsimp only
  split
  · split <;> exact ⟨rfl, rfl⟩
  · exact ⟨rfl, rfl⟩

/-- Without `dispose`, every turn revision `addFinalTurn` accepted and every
batch `recoverBatch` accepted is in a queue, in the batch of the running
`flush` or in a committed batch, and a failing callback returns its batch to
the head of the queue. -/
theorem accepted_work_retained (host : Host) (text : ClaimText) (meetingId : String)
    (options : ClaimSchedulerOptions) (config : Config ClaimScheduler Observation)
    (reaches : Reaches (step host text) undisposed (new meetingId options) config) :
    (∀ turn, .accepted turn ∈ config.trace → RetainsTurn config turn) ∧
      (∀ batch, .recovered batch ∈ config.trace → RetainsBatch config batch) ∧
      ∀ frame reading next, config.state.running = some frame →
        advance (step host text) config (reading, .rejected) = some next →
        next.state.pendingBatches = frame.batch :: config.state.pendingBatches ∧
          next.state.pendingTurns = config.state.pendingTurns := by
  have retains := ledger_retains reaches
  refine ⟨?_, ?_, ?_⟩
  · intro turn member
    have accepted : turn ∈ (ledger config).accepted := mem_filterMap.mpr ⟨_, member, rfl⟩
    rcases retains.turns turn accepted with waiting | ⟨batch, inLedger, inBatch⟩
    · exact Or.inl (by simpa [ledger, Ledger.of] using waiting)
    · rcases mem_allBatches_ledger_iff.mp inLedger with ⟨pending, inQueue, rfl⟩ |
        ⟨frame, running, rfl⟩ | committed
      · exact Or.inr (Or.inl ⟨pending, inQueue, inBatch⟩)
      · exact Or.inr (Or.inr (Or.inl ⟨frame, running, inBatch⟩))
      · exact Or.inr (Or.inr (Or.inr ⟨batch, committed, inBatch⟩))
  · intro batch member
    have recovered : batch ∈ (ledger config).recovered := mem_filterMap.mpr ⟨_, member, rfl⟩
    exact mem_allBatches_ledger_iff.mp (retains.batches batch recovered)
  · rintro ⟨batch, await⟩ reading next running advanced
    obtain ⟨emitted, stepped, -⟩ := advance_eq_some_iff.mp advanced
    simp only [step, running, Option.some.injEq] at stepped
    have live := live_of_reaches reaches
    have stateEq : next.state = (config.state.rejected batch).1 := by rw [stepped]
    rw [stateEq]
    simp only [rejected, live, Bool.false_eq_true, if_false]
    exact finishFlush_pending _ _

/-! ## A recorded run -/

section Recorded

/-- The recorded runs detect no claims, so no wording is ever looked at. -/
def recordedText : ClaimText where
  normalized := id
  atomicComparisonStatement _ := none
  normalizedClaimWording := id
  sourceBackedSemanticDuplicate _ _ := false

def recordedScheduler : ClaimScheduler :=
  new "meeting-1" gatewayClaimSchedulerOptions

/-- Segments that all read the same clock and no claims. -/
def recordedSegments (actions : List Action) : List (Reading × Action) :=
  actions.map fun action => (⟨0, []⟩, action)

/-- A turn is accepted, its batch fails to begin and is committed at the
second attempt. -/
def recordedRun : List (Reading × Action) :=
  recordedSegments [.addFinalTurn recordedTurn, .timerFired, .rejected, .timerFired,
    .beginResolved, .detectResolved (.candidates []), .commitResolved]

theorem accepted_work_retained_recordedRun :
    ∃ config, exec (step recordedHost recordedText) (Config.initial recordedScheduler)
        recordedRun = some config ∧
      ∀ turn, .accepted turn ∈ config.trace → RetainsTurn config turn := by
  obtain ⟨config, executed⟩ : ∃ config, exec (step recordedHost recordedText)
      (Config.initial recordedScheduler) recordedRun = some config :=
    Option.isSome_iff_exists.mp (by decide)
  exact ⟨config, executed, (accepted_work_retained recordedHost recordedText "meeting-1"
    gatewayClaimSchedulerOptions config (reaches_of_exec recordedRun (by decide) executed)).1⟩

theorem turns_conserved_recordedRun :
    ∃ config, exec (step recordedHost recordedText) (Config.initial recordedScheduler)
        recordedRun = some config ∧ (ledger config).Conserves := by
  obtain ⟨config, executed⟩ : ∃ config, exec (step recordedHost recordedText)
      (Config.initial recordedScheduler) recordedRun = some config :=
    Option.isSome_iff_exists.mp (by decide)
  exact ⟨config, executed, turns_conserved (reaches_of_exec recordedRun (by decide) executed)⟩

end Recorded

end Obelus.Live.ClaimScheduler
