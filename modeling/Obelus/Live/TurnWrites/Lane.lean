import Mathlib.Algebra.Order.Ring.Int

/-!
# Write lanes

A lane is the abstract view of one turn id in the write queue: the revision
persisted last, the one given up last, the queued one, the write in progress,
and the history of the lane.  A revision that is absent is `-1`.

The moves of a lane keep its executed revisions in order and lose no request,
provided that a write is given up only while nothing older is queued behind it
and that a retry does not ask for less than what was given up.
-/

namespace Obelus.Live.TurnWrites

open Relation List

/-- What the drain of a lane is doing. -/
inductive Phase
  | idle
  | writing (revision : Nat)
  | resolved (revision : Nat)
  | settling

namespace Phase

/-- The revision whose write is in progress. -/
def revision : Phase → Int
  | writing revision => revision
  | resolved revision => revision
  | idle => -1
  | settling => -1

/-- No write is in progress. -/
def Resting : Phase → Prop
  | idle => True
  | settling => True
  | _ => False

end Phase

structure Lane where
  persisted : Int
  terminal : Int
  queued : Int
  phase : Phase
  requested : List Nat
  executed : List Nat
  written : List Nat

/-- A retry may forget a revision that was given up if it asks for at least as
much, or if a newer write is in progress. -/
def Lane.MayForget (lane : Lane) (revision : Nat) : Prop :=
  lane.terminal ≤ revision ∨ ¬lane.phase.Resting

inductive LaneMove : Lane → Lane → Prop
  | refuse {lane : Lane} {revision : Nat} :
      (revision : Int) ≤ lane.persisted ∨ (revision : Int) ≤ lane.terminal ∨
        (revision : Int) ≤ lane.queued →
      LaneMove lane { lane with requested := lane.requested ++ [revision] }
  | forget {lane : Lane} {revision : Nat} :
      lane.MayForget revision → (revision : Int) ≤ lane.queued →
      LaneMove lane { lane with terminal := -1, requested := lane.requested ++ [revision] }
  | enqueue {lane : Lane} {revision : Nat} :
      lane.persisted < revision → lane.terminal < revision → lane.queued ≤ revision →
      LaneMove lane { lane with queued := revision, requested := lane.requested ++ [revision] }
  | enqueueAgain {lane : Lane} {revision : Nat} :
      lane.persisted < revision → lane.MayForget revision → lane.queued ≤ revision →
      LaneMove lane
        { lane with
          terminal := -1
          queued := revision
          requested := lane.requested ++ [revision] }
  | begin {lane : Lane} {revision : Nat} :
      lane.phase.Resting → lane.queued = revision → lane.persisted < revision →
      LaneMove lane
        { lane with
          queued := -1
          phase := .writing revision
          executed := lane.executed ++ [revision] }
  | drop {lane : Lane} :
      lane.phase.Resting → lane.queued ≤ lane.persisted →
      LaneMove lane { lane with queued := -1, phase := .settling }
  | again {lane : Lane} {revision : Nat} :
      lane.phase = .writing revision →
      LaneMove lane { lane with executed := lane.executed ++ [revision] }
  | succeed {lane : Lane} {revision : Nat} :
      lane.phase = .writing revision →
      LaneMove lane
        { lane with phase := .resolved revision, written := lane.written ++ [revision] }
  | persist {lane : Lane} {revision : Nat} :
      lane.phase = .resolved revision → lane.queued ≤ revision →
      LaneMove lane
        { lane with persisted := revision, terminal := -1, queued := -1, phase := .settling }
  | persistBegin {lane : Lane} {revision next : Nat} :
      lane.phase = .resolved revision → lane.queued = next → revision < next →
      LaneMove lane
        { lane with
          persisted := revision
          terminal := -1
          queued := -1
          phase := .writing next
          executed := lane.executed ++ [next] }
  | giveUp {lane : Lane} {revision : Nat} :
      lane.phase = .writing revision →
      lane.queued = -1 ∨ (revision : Int) ≤ lane.queued →
      LaneMove lane { lane with terminal := revision, phase := .settling }
  | finish {lane : Lane} :
      lane.phase = .settling → LaneMove lane { lane with phase := .idle }

/-- Finitely many moves of a lane. -/
abbrev LaneMoves : Lane → Lane → Prop :=
  ReflTransGen LaneMove

/-- The last written revision, or `-1`. -/
def Lane.lastWritten (lane : Lane) : Int :=
  (lane.written.getLast?.map Int.ofNat).getD (-1)

namespace Lane

/-- The invariant of lanes: every request is covered by a revision the lane
still has in some place, and the write in progress is the newest executed. -/
structure Orderly (lane : Lane) : Prop where
  absent : -1 ≤ lane.persisted ∧ -1 ≤ lane.terminal ∧ -1 ≤ lane.queued
  covered : ∀ revision ∈ lane.requested, (revision : Int) ≤ lane.persisted ∨
    (revision : Int) ≤ lane.terminal ∨ (revision : Int) ≤ lane.queued ∨
    (revision : Int) ≤ lane.phase.revision
  executed : ∀ revision ∈ lane.executed, revision ∈ lane.requested
  sorted : lane.executed.Pairwise (· ≤ ·)
  running : ¬lane.phase.Resting → (∀ revision ∈ lane.executed,
    (revision : Int) ≤ lane.phase.revision) ∧ lane.terminal ≤ lane.phase.revision ∧
    lane.persisted < lane.phase.revision
  queued : lane.queued = -1 ∨ lane.terminal ≤ lane.queued ∧ lane.persisted < lane.queued
  written : lane.lastWritten =
    match lane.phase with
    | .resolved revision => (revision : Int)
    | _ => lane.persisted
  asked : ∀ revision : Nat, lane.persisted = revision ∨ lane.queued = revision ∨
    lane.phase.revision = revision → revision ∈ lane.requested

namespace Orderly

variable {lane : Lane}

variable {terminal : Int} {revision : Nat}

section

variable (orderly : lane.Orderly)
include orderly

/-- A request leaves the lane orderly if it replaces only smaller queued
revisions and forgets only what stays covered. -/
theorem request {queued : Int} (terminalEq : terminal = lane.terminal ∨
      terminal = -1 ∧ (lane.terminal ≤ queued ∨ ¬lane.phase.Resting))
    (queuedEq : queued = lane.queued ∨ queued = revision ∧ lane.queued ≤ revision ∧
      lane.persisted < revision ∧ terminal ≤ revision)
    (covered : (revision : Int) ≤ lane.persisted ∨ (revision : Int) ≤ terminal ∨
      (revision : Int) ≤ queued) :
    Orderly { lane with terminal, queued, requested := lane.requested ++ [revision] } where
  absent := by
    have absent := orderly.absent
    dsimp only
    omega
  covered other member := by
    dsimp only at member ⊢
    rcases mem_append.mp member with before | new
    · have covered := orderly.covered other before
      have running := fun writing => (orderly.running writing).2.1
      by_cases resting : lane.phase.Resting
      · simp only [resting, not_true_eq_false, or_false] at terminalEq
        omega
      · have bound := running resting
        omega
    · rw [mem_singleton.mp new]
      omega
  executed other member := mem_append_left _ (orderly.executed other member)
  sorted := orderly.sorted
  running writing := by
    obtain ⟨newest, bound, fresh⟩ := orderly.running writing
    refine ⟨newest, ?_, fresh⟩
    have absent := orderly.absent
    dsimp only
    omega
  queued := by
    have queued := orderly.queued
    dsimp only
    omega
  written := orderly.written
  asked other known := by
    dsimp only at known
    refine mem_append.mpr ?_
    by_cases same : other = revision
    · exact Or.inr (mem_singleton.mpr same)
    · exact Or.inl (orderly.asked other (by omega))

/-- A write that begins is at least as new as everything executed before. -/
theorem begins {persisted : Int} (queuedEq : lane.queued = revision) (absent : -1 ≤ persisted)
    (terminalLe : -1 ≤ terminal ∧ terminal ≤ revision) (fresh : persisted < revision)
    (newest : ∀ other ∈ lane.executed, other ≤ revision)
    (covered : ∀ other ∈ lane.requested, (other : Int) ≤ persisted ∨ other ≤ terminal ∨
      other ≤ revision) (writtenEq : lane.lastWritten = persisted)
    (asked : ∀ other : Nat, persisted = other → other ∈ lane.requested) : Orderly
      { lane with
        persisted
        terminal
        queued := -1
        phase := .writing revision
        executed := lane.executed ++ [revision] } where
  absent := ⟨absent, terminalLe.1, le_refl _⟩
  covered other member := by
    have covered := covered other member
    simp only [Phase.revision]
    omega
  executed other member := by
    rcases mem_append.mp member with before | new
    · exact orderly.executed other before
    · rw [mem_singleton.mp new]
      exact orderly.asked revision (Or.inr (Or.inl queuedEq))
  sorted := by
    rw [pairwise_append]
    refine ⟨orderly.sorted, pairwise_singleton _ _, ?_⟩
    intro other before last member
    rw [mem_singleton.mp member]
    exact newest other before
  running _ := by
    refine ⟨?_, terminalLe.2, fresh⟩
    intro other member
    simp only [Phase.revision, Nat.cast_le]
    rcases mem_append.mp member with before | new
    · exact newest other before
    · exact (mem_singleton.mp new).le
  queued := Or.inl rfl
  written := writtenEq
  asked other known := by
    rcases known with same | same | same
    · exact asked other same
    · simp only at same
      omega
    · have equal : other = revision := by simpa [Phase.revision] using same.symm
      rw [equal]
      exact orderly.asked revision (Or.inr (Or.inl queuedEq))

/-- A lane at rest covers its requests without a write in progress. -/
theorem covered_of_resting (resting : lane.phase.Resting) (member : revision ∈ lane.requested) :
    (revision : Int) ≤ lane.persisted ∨ (revision : Int) ≤ lane.terminal ∨
      (revision : Int) ≤ lane.queued := by
  have covered := orderly.covered revision member
  have idle : lane.phase.revision = -1 := by
    cases phaseEq : lane.phase <;> simp_all [Phase.Resting, Phase.revision]
  omega

theorem lastWritten_of_resting (resting : lane.phase.Resting) :
    lane.lastWritten = lane.persisted := by
  have written := orderly.written
  cases phaseEq : lane.phase <;> simp_all [Phase.Resting]

theorem begin (resting : lane.phase.Resting) (queuedEq : lane.queued = revision)
    (fresh : lane.persisted < revision) : Orderly
      { lane with
        queued := -1
        phase := .writing revision
        executed := lane.executed ++ [revision] } := by
  have queued := orderly.queued
  have terminalLe : lane.terminal ≤ revision := by omega
  refine orderly.begins queuedEq orderly.absent.1 ⟨orderly.absent.2.1, terminalLe⟩ fresh ?_ ?_
    (orderly.lastWritten_of_resting resting) fun other same => orderly.asked other (Or.inl same)
  · intro other member
    have covered := orderly.covered_of_resting resting (orderly.executed other member)
    omega
  · intro other member
    have covered := orderly.covered_of_resting resting member
    omega

theorem persistBegin {next : Nat} (phaseEq : lane.phase = .resolved revision)
    (queuedEq : lane.queued = next) (newer : revision < next) : Orderly
      { lane with
        persisted := revision
        terminal := -1
        queued := -1
        phase := .writing next
        executed := lane.executed ++ [next] } := by
  obtain ⟨newest, bound, fresh⟩ := orderly.running (by simp [phaseEq, Phase.Resting])
  have written := orderly.written
  simp only [phaseEq, Phase.revision] at newest bound fresh written
  refine orderly.begins queuedEq (by omega) (by omega) (by omega) ?_ ?_ written ?_
  · intro other member
    have older := newest other member
    omega
  · intro other member
    have covered := orderly.covered other member
    simp only [phaseEq, Phase.revision] at covered
    omega
  · intro other same
    exact orderly.asked other (Or.inr (Or.inr (by rw [phaseEq]; exact same)))

theorem persist (phaseEq : lane.phase = .resolved revision) (queuedLe : lane.queued ≤ revision) :
    Orderly
      { lane with persisted := revision, terminal := -1, queued := -1, phase := .settling } := by
  obtain ⟨-, bound, fresh⟩ := orderly.running (by simp [phaseEq, Phase.Resting])
  have written := orderly.written
  have covered := orderly.covered
  have asked := orderly.asked
  simp only [phaseEq, Phase.revision] at bound fresh written covered asked
  refine ⟨by dsimp only; omega, ?_, orderly.executed, orderly.sorted, by simp [Phase.Resting],
    Or.inl rfl, written, ?_⟩
  · intro other member
    have covered := covered other member
    dsimp only
    omega
  · intro other known
    simp only [Phase.revision] at known
    exact asked other (by omega)

theorem drop (resting : lane.phase.Resting) (persistedLe : lane.queued ≤ lane.persisted) :
    Orderly { lane with queued := -1, phase := .settling } := by
  refine ⟨⟨orderly.absent.1, orderly.absent.2.1, le_refl _⟩, ?_, orderly.executed,
    orderly.sorted, by simp [Phase.Resting], Or.inl rfl,
    orderly.lastWritten_of_resting resting, ?_⟩
  · intro other member
    have covered := orderly.covered_of_resting resting member
    dsimp only
    omega
  · intro other known
    simp only [Phase.revision] at known
    exact orderly.asked other (by omega)

theorem again (phaseEq : lane.phase = .writing revision) :
    Orderly { lane with executed := lane.executed ++ [revision] } := by
  obtain ⟨newest, bound, fresh⟩ := orderly.running (by simp [phaseEq, Phase.Resting])
  have known : revision ∈ lane.requested :=
    orderly.asked revision (Or.inr (Or.inr (by rw [phaseEq]; rfl)))
  have extended : ∀ other ∈ lane.executed ++ [revision], (other : Int) ≤ lane.phase.revision := by
    intro other member
    rcases mem_append.mp member with before | new
    · exact newest other before
    · rw [mem_singleton.mp new, phaseEq]
      exact le_refl _
  refine ⟨orderly.absent, orderly.covered, ?_, ?_, fun _ => ⟨extended, bound, fresh⟩,
    orderly.queued, orderly.written, orderly.asked⟩
  · intro other member
    rcases mem_append.mp member with before | new
    · exact orderly.executed other before
    · rwa [mem_singleton.mp new]
  · rw [pairwise_append]
    refine ⟨orderly.sorted, pairwise_singleton _ _, ?_⟩
    intro other before last member
    rw [mem_singleton.mp member]
    simpa [phaseEq, Phase.revision] using newest other before

theorem succeed (phaseEq : lane.phase = .writing revision) : Orderly
      { lane with phase := .resolved revision, written := lane.written ++ [revision] } := by
  have running := orderly.running (by simp [phaseEq, Phase.Resting])
  have covered := orderly.covered
  have asked := orderly.asked
  rw [phaseEq] at running covered asked
  exact ⟨orderly.absent, covered, orderly.executed, orderly.sorted, fun _ => running,
    orderly.queued, by simp [Lane.lastWritten], asked⟩

theorem giveUp (phaseEq : lane.phase = .writing revision)
    (newer : lane.queued = -1 ∨ (revision : Int) ≤ lane.queued) :
    Orderly { lane with terminal := revision, phase := .settling } := by
  obtain ⟨-, bound, fresh⟩ := orderly.running (by simp [phaseEq, Phase.Resting])
  have covered := orderly.covered
  have asked := orderly.asked
  have written := orderly.written
  have absent := orderly.absent
  simp only [phaseEq, Phase.revision] at bound fresh covered asked written
  refine ⟨by dsimp only; omega, ?_, orderly.executed, orderly.sorted, by simp [Phase.Resting],
    by dsimp only; omega, written, ?_⟩
  · intro other member
    have covered := covered other member
    dsimp only
    omega
  · intro other known
    simp only [Phase.revision] at known
    exact asked other (by omega)

theorem finish (phaseEq : lane.phase = .settling) : Orderly { lane with phase := .idle } := by
  have covered := orderly.covered
  have asked := orderly.asked
  have written := orderly.written
  simp only [phaseEq] at covered asked written
  exact ⟨orderly.absent, covered, orderly.executed, orderly.sorted, by simp [Phase.Resting],
    orderly.queued, written, asked⟩

end

end Orderly

variable {lane : Lane}

theorem orderly_of_move {next : Lane} (move : LaneMove lane next) (orderly : lane.Orderly) :
    next.Orderly := by
  cases move with
  | refuse covered => exact orderly.request (Or.inl rfl) (Or.inl rfl) covered
  | @forget revision mayForget queuedGe =>
    have terminalLe : lane.terminal ≤ lane.queued ∨ ¬lane.phase.Resting :=
      mayForget.imp_left fun bound => bound.trans queuedGe
    exact orderly.request (Or.inr ⟨rfl, terminalLe⟩) (Or.inl rfl) (Or.inr (Or.inr queuedGe))
  | enqueue fresh notGivenUp newer =>
    exact orderly.request (Or.inl rfl) (Or.inr ⟨rfl, newer, fresh, notGivenUp.le⟩)
      (Or.inr (Or.inr (le_refl _)))
  | enqueueAgain fresh mayForget newer =>
    exact orderly.request (Or.inr ⟨rfl, mayForget⟩) (Or.inr ⟨rfl, newer, fresh, by omega⟩)
      (Or.inr (Or.inr (le_refl _)))
  | begin resting queuedEq fresh => exact orderly.begin resting queuedEq fresh
  | drop resting persistedLe => exact orderly.drop resting persistedLe
  | again phaseEq => exact orderly.again phaseEq
  | succeed phaseEq => exact orderly.succeed phaseEq
  | persist phaseEq queuedLe => exact orderly.persist phaseEq queuedLe
  | persistBegin phaseEq queuedEq newer => exact orderly.persistBegin phaseEq queuedEq newer
  | giveUp phaseEq newer => exact orderly.giveUp phaseEq newer
  | finish phaseEq => exact orderly.finish phaseEq

theorem orderly_of_moves {next : Lane} (moves : LaneMoves lane next) (orderly : lane.Orderly) :
    next.Orderly := by
  induction moves with
  | refl => exact orderly
  | tail _ move ih => exact orderly_of_move move ih

/-- A lane at rest with nothing queued and nothing given up has written its
largest request last. -/
theorem Orderly.last_written (orderly : lane.Orderly) (resting : lane.phase.Resting)
    (queuedEq : lane.queued = -1) (terminalEq : lane.terminal = -1) {revision : Nat}
    (member : revision ∈ lane.requested) :
    ∃ last, lane.written.getLast? = some last ∧ last ∈ lane.requested ∧
      ∀ other ∈ lane.requested, other ≤ last := by
  have persistedGe : ∀ other ∈ lane.requested, (other : Int) ≤ lane.persisted := by
    intro other member
    have covered := orderly.covered_of_resting resting member
    omega
  have written := orderly.lastWritten_of_resting resting
  have positive := persistedGe revision member
  cases lastEq : lane.written.getLast? with
  | none =>
    simp only [lastWritten, lastEq, Option.map_none, Option.getD_none] at written
    omega
  | some last =>
    simp only [lastWritten, lastEq, Option.map_some, Option.getD_some, Int.ofNat_eq_natCast]
      at written
    refine ⟨last, rfl, orderly.asked last (Or.inl written.symm), ?_⟩
    intro other member
    have bound := persistedGe other member
    omega

end Lane

end Obelus.Live.TurnWrites
