import Obelus.Live.ClaimScheduler.Ledger

/-!
# Turn revisions are processed once

`addFinalTurn` and `recoverBatch` look for work they already know in the
queues and among the completed revisions.  Neither looks at the batch of a
running `flush`, and `recoverBatch` compares batch ids only.  A run in which no
delivery falls into these gaps processes every turn revision at most once, and
a redelivery during `beginBatch` is enough to process one twice.
-/

namespace Obelus.Live.ClaimScheduler

open Obelus.Data List
open Obelus.Transition

def revisionKeys (turns : List ClaimGateTurnSnapshot) : List String :=
  turns.map turnRevisionKey

def batchKeys (batch : ClaimGateBatch) : List String :=
  revisionKeys batch.turns

section Completed

variable {completed : JsSet String} {turn : ClaimGateTurnSnapshot}
  {turns : List ClaimGateTurnSnapshot}

variable {key : String}

theorem mem_delete_add {other : String} :
    other ∈ (completed.delete key).add key ↔ other = key ∨ other ∈ completed := by
  simp only [JsSet.mem_add, JsSet.mem_delete]
  tauto

theorem size_le_size_delete_add (completed : JsSet String) (key : String) :
    completed.size ≤ ((completed.delete key).add key).size := by
  have absent : key ∉ completed.delete key := by simp
  rw [JsSet.size_add, if_neg absent]
  by_cases member : key ∈ completed
  · exact (JsSet.size_delete_of_mem member).ge
  · rw [JsSet.delete_of_not_mem member]
    omega

/-- Marking evicts nothing until the set has outgrown its capacity. -/
theorem markTurnRevisionCompleted_of_size_lt
    (room : (markTurnRevisionCompleted completed turn).size < maxCompletedTurnRevisions) :
    markTurnRevisionCompleted completed turn =
      (completed.delete (turnRevisionKey turn)).add (turnRevisionKey turn) := by
  simp only [markTurnRevisionCompleted] at room ⊢
  split at room
  · split at room
    · exact absurd room (by omega)
    · rename_i oldest rest elementsEq
      have member : oldest ∈
          (completed.delete (turnRevisionKey turn)).add (turnRevisionKey turn) := by
        rw [JsSet.mem_def, elementsEq]
        exact mem_cons_self
      have shrunk := JsSet.size_delete_of_mem member
      omega
  · rename_i fits
    rw [if_neg fits]

theorem size_lt_of_markTurnRevisionCompleted
    (room : (markTurnRevisionCompleted completed turn).size < maxCompletedTurnRevisions) :
    completed.size < maxCompletedTurnRevisions := by
  have grown := size_le_size_delete_add completed (turnRevisionKey turn)
  rw [markTurnRevisionCompleted_of_size_lt room] at room
  omega

theorem size_lt_of_foldl_mark
    (room : (turns.foldl markTurnRevisionCompleted completed).size < maxCompletedTurnRevisions) :
    completed.size < maxCompletedTurnRevisions := by
  induction turns generalizing completed with
  | nil => exact room
  | cons turn rest ih => exact size_lt_of_markTurnRevisionCompleted (ih room)

/-- With room left, marking the turns of a batch adds exactly its keys. -/
theorem mem_foldl_mark_iff
    (room : (turns.foldl markTurnRevisionCompleted completed).size < maxCompletedTurnRevisions) :
    key ∈ turns.foldl markTurnRevisionCompleted completed ↔
      key ∈ completed ∨ key ∈ revisionKeys turns := by
  induction turns generalizing completed with
  | nil => simp [revisionKeys]
  | cons turn rest ih =>
    have roomMark : (markTurnRevisionCompleted completed turn).size < maxCompletedTurnRevisions :=
      size_lt_of_foldl_mark room
    rw [foldl_cons] at room ⊢
    rw [ih room, markTurnRevisionCompleted_of_size_lt roomMark, mem_delete_add]
    simp only [revisionKeys, map_cons, mem_cons]
    tauto

end Completed

namespace Ledger

/-- The keys of the waiting turns, and those of every batch. -/
def slots (ledger : Ledger) : List (List String) :=
  revisionKeys ledger.turns :: ledger.allBatches.map batchKeys

/-- A key that neither waits, nor is held, nor is completed. -/
def Fresh (ledger : Ledger) (key : String) : Prop :=
  key ∉ revisionKeys ledger.turns ∧ (∀ batch ∈ ledger.batches, key ∉ batchKeys batch) ∧
    (∀ batch, ledger.held = some batch → key ∉ batchKeys batch) ∧ key ∉ ledger.completed

/-- No two slots share a key, and what was committed is remembered. -/
structure SingleUse (ledger : Ledger) : Prop where
  slots : ledger.slots.Pairwise List.Disjoint
  turns : (revisionKeys ledger.turns).Nodup
  completed : ∀ batch ∈ ledger.committed, ∀ key ∈ batchKeys batch, key ∈ ledger.completed

end Ledger

/-- Only fresh work is taken on, and no completed revision is forgotten. -/
def Admission.fresh : Admission where
  turn ledger turn := ledger.Fresh (turnRevisionKey turn)
  batch ledger batch := ∀ key ∈ batchKeys batch, ledger.Fresh key
  commit ledger batch :=
    (batch.turns.foldl markTurnRevisionCompleted ledger.completed).size <
      maxCompletedTurnRevisions

namespace Ledger

variable {ledger : Ledger} {batch : ClaimGateBatch}

/-- The order of the batches does not matter to the slots. -/
theorem pairwise_slots_of_perm (batches : List ClaimGateBatch)
    (perm : ledger.allBatches.Perm batches) (pairwise :
      (revisionKeys ledger.turns :: batches.map batchKeys).Pairwise Disjoint) :
    ledger.slots.Pairwise Disjoint :=
  (((perm.map batchKeys).cons _).pairwise_iff disjoint_symm).mpr pairwise

section

variable (single : ledger.SingleUse)
include single

/-- A fresh key is in no slot. -/
theorem SingleUse.not_mem_of_fresh {key : String} (fresh : ledger.Fresh key) :
    ∀ slot ∈ ledger.slots, key ∉ slot := by
  intro slot member
  rcases mem_cons.mp member with rfl | member
  · exact fresh.1
  · obtain ⟨batch, inLedger, rfl⟩ := mem_map.mp member
    rcases mem_allBatches_iff.mp inLedger with waiting | held | committed
    · exact fresh.2.1 batch waiting
    · exact fresh.2.2.1 batch held
    · exact fun inBatch => fresh.2.2.2 (single.completed batch committed key inBatch)

theorem SingleUse.accept {turn : ClaimGateTurnSnapshot} {turns : List ClaimGateTurnSnapshot}
    (fresh : ledger.Fresh (turnRevisionKey turn)) (perm : turns.Perm (ledger.turns ++ [turn])) :
    SingleUse { ledger with turns, accepted := ledger.accepted ++ [turn] } := by
  have keysPerm :
      (revisionKeys turns).Perm (revisionKeys ledger.turns ++ [turnRevisionKey turn]) := by
    simpa [revisionKeys] using perm.map turnRevisionKey
  have unused := single.not_mem_of_fresh fresh
  have parts := pairwise_cons.mp single.slots
  refine ⟨pairwise_cons.mpr ⟨?_, parts.2⟩, ?_, single.completed⟩
  · intro slot member key inTurns inSlot
    rcases mem_append.mp (keysPerm.mem_iff.mp inTurns) with before | new
    · exact parts.1 slot member before inSlot
    · rw [mem_singleton.mp new] at inSlot
      exact unused slot (mem_cons_of_mem _ member) inSlot
  · exact keysPerm.nodup_iff.mpr (nodup_snoc single.turns fresh.1)

theorem SingleUse.recover (fresh : ∀ key ∈ batchKeys batch, ledger.Fresh key) : SingleUse
      { ledger with
        batches := ledger.batches ++ [batch]
        recovered := ledger.recovered ++ [batch] } := by
  have apart : ∀ slot ∈ ledger.slots, (batchKeys batch).Disjoint slot := by
    intro slot member key inBatch inSlot
    exact single.not_mem_of_fresh (fresh key inBatch) slot member inSlot
  have parts := pairwise_cons.mp single.slots
  refine ⟨pairwise_slots_of_perm (batch :: ledger.allBatches) ?_ ?_, single.turns, single.completed⟩
  · simp only [allBatches, append_assoc]
    exact perm_middle
  · rw [map_cons, pairwise_cons, pairwise_cons]
    refine ⟨?_, fun slot member => apart slot (mem_cons_of_mem _ member), parts.2⟩
    intro slot member
    rcases mem_cons.mp member with rfl | member
    · exact disjoint_symm (apart _ mem_cons_self)
    · exact parts.1 slot member

theorem SingleUse.takeTurns {rest : List ClaimGateTurnSnapshot} (idle : ledger.held = none)
    (taken : ledger.turns = batch.turns ++ rest) :
    SingleUse { ledger with turns := rest, held := some batch } := by
  have keysEq : revisionKeys ledger.turns = batchKeys batch ++ revisionKeys rest := by
    simp [revisionKeys, batchKeys, taken]
  have turnsNodup := single.turns
  rw [keysEq, nodup_append'] at turnsNodup
  have parts := pairwise_cons.mp single.slots
  rw [keysEq] at parts
  refine ⟨pairwise_slots_of_perm (batch :: ledger.allBatches) ?_ ?_, turnsNodup.2.1,
    single.completed⟩
  · simp only [allBatches, idle]
    exact perm_middle
  · rw [map_cons, pairwise_cons, pairwise_cons]
    refine ⟨?_, fun slot member key inBatch =>
      parts.1 slot member (mem_append_left _ inBatch), parts.2⟩
    intro slot member
    rcases mem_cons.mp member with rfl | member
    · exact disjoint_symm turnsNodup.2.2
    · exact fun key inRest => parts.1 slot member (mem_append_right _ inRest)

theorem SingleUse.commit (held : ledger.held = some batch)
    (room : (batch.turns.foldl markTurnRevisionCompleted ledger.completed).size <
      maxCompletedTurnRevisions) : SingleUse
      { ledger with
        held := none
        completed := batch.turns.foldl markTurnRevisionCompleted ledger.completed
        committed := ledger.committed ++ [batch] } := by
  refine ⟨pairwise_slots_of_perm _ ?_ single.slots, single.turns, ?_⟩
  · simp only [allBatches, held]
    exact Perm.append_left _ (perm_append_singleton batch ledger.committed)
  · intro other committed key inOther
    rw [mem_foldl_mark_iff room]
    rcases mem_append.mp committed with before | new
    · exact Or.inl (single.completed other before key inOther)
    · rw [mem_singleton.mp new] at inOther
      exact Or.inr inOther

end

theorem singleUse_of_move {next : Ledger} (move : Move .fresh ledger next)
    (single : ledger.SingleUse) : next.SingleUse := by
  cases move with
  | accept fresh perm => exact single.accept fresh perm
  | recover fresh => exact single.recover fresh
  | takeBatch idle waiting =>
    refine ⟨pairwise_slots_of_perm _ ?_ single.slots, single.turns, single.completed⟩
    simp only [allBatches, idle, waiting]
    exact perm_middle
  | takeTurns idle taken => exact single.takeTurns idle taken
  | commit held room => exact single.commit held room
  | giveBack held =>
    refine ⟨pairwise_slots_of_perm _ ?_ single.slots, single.turns, single.completed⟩
    simp only [allBatches, held]
    exact perm_middle.symm

end Ledger

/-- The places of the source that hold work which is not yet committed, by the
keys they hold. -/
def places (scheduler : ClaimScheduler) : List (List String) :=
  revisionKeys (scheduler.pendingTurns.map TranscriptTurn.toSnapshot) ::
    (scheduler.pendingBatches.map fun batch => batchKeys batch.toClaimGateBatch) ++
      scheduler.running.toList.map fun frame => batchKeys frame.batch.toClaimGateBatch

/-- Every key is in at most one place, and at most one batch that carries it
was committed. -/
structure ProcessedOnce (config : Config ClaimScheduler Observation) : Prop where
  places : config.state.places.Pairwise List.Disjoint
  committed : ((config.trace.filterMap committedBatch?).map batchKeys).Pairwise List.Disjoint

/-- The runs without `dispose` that complete less than the capacity of the set
of completed revisions. -/
def withinCapacity : Guard ClaimScheduler (Reading × Action) Observation :=
  fun _ action next => action.2 ≠ .dispose ∧
    next.state.completedTurnRevisions.size < maxCompletedTurnRevisions

/-- The keys an action delivers to a scheduler that accepts them, and that the
scheduler has in hand: for a turn the keys of the running batch, for a batch
everything that waits, runs or is completed. -/
def redelivered (scheduler : ClaimScheduler) : Action → List String
  | .addFinalTurn turn =>
    if scheduler.acceptsTurn turn then
      [turnRevisionKey turn.toSnapshot].filter fun key =>
        scheduler.running.any fun frame => key ∈ batchKeys frame.batch.toClaimGateBatch
    else []
  | .recoverBatch batch =>
    if scheduler.acceptsBatch batch then
      (batchKeys batch).filter fun key =>
        key ∈ scheduler.completedTurnRevisions || scheduler.places.any fun place => key ∈ place
    else []
  | _ => []

/-- No delivery repeats a revision behind the back of the duplicate tests. -/
def firstDeliveries : Guard ClaimScheduler (Reading × Action) Observation :=
  fun config action next => withinCapacity config action next ∧
    redelivered config.state action.2 = []

section Admissions

variable {scheduler : ClaimScheduler} {trace : List Observation}

theorem fresh_iff {key : String} : (Ledger.of scheduler trace).Fresh key ↔
      key ∉ revisionKeys (scheduler.pendingTurns.map TranscriptTurn.toSnapshot) ∧
        (∀ batch ∈ scheduler.pendingBatches, key ∉ batchKeys batch.toClaimGateBatch) ∧
        (∀ frame, scheduler.running = some frame → key ∉ batchKeys frame.batch.toClaimGateBatch) ∧
        key ∉ scheduler.completedTurnRevisions := by
  simp [Ledger.Fresh, Ledger.of]

theorem fresh_of_acceptsTurn {turn : TranscriptTurn} (accepts : scheduler.acceptsTurn turn = true)
    (first : redelivered scheduler (.addFinalTurn turn) = []) :
    (Ledger.of scheduler trace).Fresh (turnRevisionKey turn.toSnapshot) := by
  have unknown : scheduler.hasTurnRevision turn = false := by
    simp only [acceptsTurn, Bool.and_eq_true, Bool.not_eq_true'] at accepts
    exact accepts.2
  simp only [hasTurnRevision, Bool.or_eq_false_iff, any_eq_false, decide_eq_true_eq] at unknown
  simp only [redelivered, accepts, if_true, filter_eq_nil_iff, mem_singleton,
    forall_eq, Option.any_eq_true, decide_eq_true_eq, not_exists, not_and] at first
  rw [fresh_iff]
  refine ⟨?_, ?_, first, ?_⟩
  · simp only [revisionKeys, mem_map, not_exists, not_and]
    rintro _ ⟨pending, member, rfl⟩
    exact unknown.1.1 pending member
  · intro batch member
    simp only [batchKeys, revisionKeys]
    simpa using unknown.2 batch member
  · simpa [JsSet.has] using unknown.1.2

theorem fresh_of_acceptsBatch {batch : ClaimGateBatch} (accepts : scheduler.acceptsBatch batch)
    (first : redelivered scheduler (.recoverBatch batch) = []) :
    ∀ key ∈ batchKeys batch, (Ledger.of scheduler trace).Fresh key := by
  intro key member
  simp only [redelivered, accepts, if_true, filter_eq_nil_iff] at first
  have absent := first key member
  simp only [Bool.or_eq_true, decide_eq_true_eq, not_or, any_eq_true, not_exists, not_and] at absent
  obtain ⟨notCompleted, nowhere⟩ := absent
  rw [fresh_iff]
  refine ⟨?_, ?_, ?_, notCompleted⟩
  · exact nowhere _ (mem_append_left _ mem_cons_self)
  · intro pending waiting
    exact nowhere _ (mem_append_left _ (mem_cons_of_mem _
      (mem_map_of_mem (f := fun batch => batchKeys batch.toClaimGateBatch) waiting)))
  · intro frame running
    refine nowhere _ (mem_append_right _ ?_)
    simp [running]

theorem commitResolved_completed (batch : ScheduledClaimGateBatch)
    (accepted : List ClaimCandidate) (rateLimited : Bool) (reading : Reading)
    (live : scheduler.disposed = false) :
    (scheduler.commitResolved batch accepted rateLimited reading).1.completedTurnRevisions =
      batch.turns.foldl markTurnRevisionCompleted scheduler.completedTurnRevisions := by
  simp only [commitResolved, live]
  exact congrArg Ledger.completed (Ledger.of_finishFlush _ [] _)

end Admissions

section Runs

variable {host : Host} {text : ClaimText} {meetingId : String} {options : ClaimSchedulerOptions}
  {config : Config ClaimScheduler Observation}

theorem ledger_singleUse
    (reaches : Reaches (step host text) firstDeliveries (new meetingId options) config) :
    (ledger config).SingleUse := by
  refine reaches.invariant (fun config => (ledger config).SingleUse) ?_ ?_
  · exact ⟨by simp [ledger, Ledger.of, Ledger.slots, Ledger.allBatches, new], by
      simp [ledger, Ledger.of, revisionKeys, new], by simp [ledger, Ledger.of]⟩
  · rintro config next ⟨reading, action⟩ before single advanced ⟨⟨undisposed, room⟩, first⟩
    have live := live_of_reaches (before.mono fun _ _ _ admitted => admitted.1.1)
    refine (advance_moves .fresh live advanced undisposed ?_ ?_ ?_).preserve
      (fun _ _ => Ledger.singleUse_of_move) single
    · rintro turn rfl accepts
      exact fresh_of_acceptsTurn accepts first
    · rintro batch rfl accepts
      exact fresh_of_acceptsBatch accepts first
    · rintro batch accepted rateLimited rfl running
      obtain ⟨emitted, stepped, -⟩ := advance_eq_some_iff.mp advanced
      simp only [step, running, Option.some.injEq] at stepped
      have completedEq := commitResolved_completed batch accepted rateLimited reading live
      rw [stepped] at completedEq
      rw [completedEq] at room
      exact room

/-- In every run without `dispose` and within capacity, in which no accepted
delivery repeats a revision the duplicate tests cannot see, each turn revision
is in one place at most and is committed at most once. -/
theorem processedOnce_of_firstDeliveries (host : Host) (text : ClaimText) (meetingId : String)
    (options : ClaimSchedulerOptions) (config : Config ClaimScheduler Observation)
    (reaches : Reaches (step host text) firstDeliveries (new meetingId options) config) :
    ProcessedOnce config := by
  have single := ledger_singleUse reaches
  have slotsEq : (ledger config).slots =
      config.state.places ++ (ledger config).committed.map batchKeys := by
    simp only [Ledger.slots, Ledger.allBatches, places, ledger, Ledger.of, map_append,
      map_map, cons_append, append_assoc]
    cases config.state.running <;> rfl
  have parts := pairwise_append.mp (slotsEq ▸ single.slots)
  exact ⟨parts.1, parts.2.1⟩

end Runs

instance (first second : List String) : Decidable (first.Disjoint second) :=
  decidable_of_iff (∀ key ∈ first, key ∉ second) Iff.rfl

instance : ∀ config action next, Decidable (withinCapacity config action next) :=
  fun _ _ _ => inferInstanceAs (Decidable (_ ∧ _))

instance : ∀ config action next, Decidable (firstDeliveries config action next) :=
  fun _ _ _ => inferInstanceAs (Decidable (_ ∧ _))

instance (config : Config ClaimScheduler Observation) : Decidable (ProcessedOnce config) :=
  decidable_of_iff (_ ∧ _) ⟨fun parts => ⟨parts.1, parts.2⟩, fun once => ⟨once.1, once.2⟩⟩

theorem processedOnce_recordedRun :
    ∃ config, exec (step recordedHost recordedText) (Config.initial recordedScheduler)
        recordedRun = some config ∧ ProcessedOnce config := by
  obtain ⟨config, executed⟩ : ∃ config, exec (step recordedHost recordedText)
      (Config.initial recordedScheduler) recordedRun = some config :=
    Option.isSome_iff_exists.mp (by decide)
  exact ⟨config, executed, processedOnce_of_firstDeliveries recordedHost recordedText
    "meeting-1" gatewayClaimSchedulerOptions config
    (reaches_of_exec recordedRun (by decide +kernel) executed)⟩

/-- A turn delivered again while `beginBatch` is awaited passes the duplicate
tests, is queued beside the batch that carries it, and is committed again. -/
def redeliveredRun : List (Reading × Action) :=
  recordedSegments [.addFinalTurn recordedTurn, .flush, .addFinalTurn recordedTurn,
    .beginResolved, .detectResolved (.candidates []), .commitResolved, .timerFired,
    .beginResolved, .detectResolved (.candidates []), .commitResolved]

theorem not_processedOnce_of_redelivery :
    ∃ config, Reaches (step recordedHost recordedText) withinCapacity recordedScheduler config ∧
      ¬ProcessedOnce config :=
  exists_reaches_of_exec _ _ _ _ redeliveredRun (by decide +kernel) (by decide +kernel)

end Obelus.Live.ClaimScheduler
