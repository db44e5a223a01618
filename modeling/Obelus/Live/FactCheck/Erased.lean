import Obelus.Live.FactCheck.Releasing

/-!
# A released meeting stays erased

A release waits for all writes that were asked for before it, and none is asked for behind it.
When it removes the directory, nothing else can go on that returns something, and what goes on
later finds the meeting released.
-/

namespace Obelus.Live.FactCheck

open Obelus.Transition List

variable {ρ δ : Type}

/-! ## Writes -/

namespace MeetingPersistence

variable {persistence : MeetingPersistence}

theorem not_canStart_of_isIdle (idle : persistence.isIdle = true) :
    persistence.canStart = false := by
  simp only [isIdle, Bool.and_eq_true] at idle
  simp [canStart, idle.2]

theorem current_of_isIdle (idle : persistence.isIdle = true) : persistence.current = none := by
  simp only [isIdle, Bool.and_eq_true, Option.isNone_iff_eq_none] at idle
  exact idle.1

/-- When as many writes are settled as were asked for, none is left. -/
theorem isIdle_of_asked_le (all : persistence.asked ≤ persistence.settled.length) :
    persistence.isIdle = true := by
  unfold asked at all
  cases isCurrent : persistence.current with
  | none =>
    have none : persistence.queued = 0 := by omega
    simp [isIdle, isCurrent, none]
  | some operation =>
    rw [isCurrent] at all
    simp only [Option.isSome_some, if_true] at all
    omega

theorem asked_settle (succeeded : Bool) (busy : persistence.current.isSome = true) :
    (persistence.settle succeeded).asked = persistence.asked := by
  simp only [asked, settle, length_append, length_singleton, busy, if_true,
    Option.isSome_none, Bool.false_eq_true, if_false]
  omega

theorem asked_goOn (operation : FileOperation) (busy : persistence.current.isSome = true) :
    (persistence.goOn operation).asked = persistence.asked := by
  simp [asked, goOn, busy]

variable (released : Bool)

theorem asked_start (canStart : persistence.canStart = true) :
    (persistence.start released).asked = persistence.asked := by
  simp only [MeetingPersistence.canStart, Bool.and_eq_true, Option.isNone_iff_eq_none,
    decide_eq_true_eq] at canStart
  cases released with
  | true =>
    simp only [start, asked, settle, length_append, length_singleton, if_true, canStart.1]
    omega
  | false =>
    simp only [start, asked, goOn, canStart.1, Option.isSome_none, Option.isSome_some,
      Bool.false_eq_true, if_false, if_true]
    omega

/-- A file operation settles a write or goes on with it. -/
theorem operated_cases (succeeded : Bool) (operation : FileOperation)
    (persistence : MeetingPersistence) :
    (∃ settled, persistence.operated released succeeded operation = persistence.settle settled) ∨
      ∃ next, persistence.operated released succeeded operation = persistence.goOn next := by
  unfold operated
  split <;> first
    | exact Or.inl ⟨_, rfl⟩
    | exact Or.inr ⟨_, rfl⟩
    | (split <;> first
        | exact Or.inl ⟨_, rfl⟩
        | exact Or.inr ⟨_, rfl⟩)

theorem asked_operated (succeeded : Bool) (operation : FileOperation)
    (busy : persistence.current.isSome = true) :
    (persistence.operated released succeeded operation).asked = persistence.asked := by
  rcases operated_cases released succeeded operation persistence with ⟨settled, is⟩ | ⟨next, is⟩
  · rw [is, asked_settle settled busy]
  · rw [is, asked_goOn next busy]

end MeetingPersistence

/-! ## Lists -/

theorem mem_modify {α : Type} {elements : List α} {index : Nat} {change : α → α} {element : α}
    (member : element ∈ elements.modify index change) :
    element ∈ elements ∨ ∃ other ∈ elements, element = change other := by
  obtain ⟨place, found⟩ := mem_iff_getElem?.mp member
  rw [getElem?_modify] at found
  obtain ⟨other, isOther, rfl⟩ := Option.map_eq_some_iff.mp found
  have isIn := mem_of_getElem? isOther
  split
  · exact Or.inr ⟨other, isIn, rfl⟩
  · exact Or.inl isIn

/-! ## What always holds -/

/-- The call will not return a job that it found before. -/
def WaitingCall.isSilent (waiting : WaitingCall ρ) : Bool :=
  match waiting.phase with
  | .looked (some _) => false
  | .returning _ => false
  | _ => true

namespace MeetingService

/-- What is waited for by a release is done behind it. -/
structure Sound (service : MeetingService ρ δ) : Prop where
  released : service.releases ≠ [] → service.released = true
  awaited : ∀ writes, .awaiting writes ∈ service.releases → service.persistence.asked ≤ writes
  idle : .removing ∈ service.releases ∨ .resolved ∈ service.releases →
    service.persistence.isIdle = true
  directory : .resolved ∈ service.releases → service.directory = false
  calls : .resolved ∈ service.releases → ∀ waiting ∈ service.calls, waiting.isSilent = true
  detections : .resolved ∈ service.releases →
    ∀ detection ∈ service.detections, detectionIsReady detection = false

/-- What only goes on leaves the releases alone, and asks for no write and finds nothing to return
in a released meeting. -/
structure GoesOn (service next : MeetingService ρ δ) : Prop where
  releases : next.releases = service.releases
  released : next.released = service.released
  directory : next.directory = service.directory
  persistence : service.released = true → next.persistence = service.persistence
  calls : service.released = true → (∀ waiting ∈ service.calls, waiting.isSilent = true) →
    ∀ waiting ∈ next.calls, waiting.isSilent = true
  detections : service.released = true →
    (∀ detection ∈ service.detections, detectionIsReady detection = false) →
    ∀ detection ∈ next.detections, detectionIsReady detection = false

section GoesOn

variable {service next last : MeetingService ρ δ}

theorem released_of_mem (sound : Sound service) {phase : ReleasePhase}
    (member : phase ∈ service.releases) : service.released = true :=
  sound.released (ne_nil_of_mem member)

theorem Sound.goesOn (sound : Sound service) (goesOn : GoesOn service next) : Sound next := by
  constructor
  · rw [goesOn.releases, goesOn.released]
    exact sound.released
  · intro writes member
    rw [goesOn.releases] at member
    rw [goesOn.persistence (released_of_mem sound member)]
    exact sound.awaited writes member
  · intro removing
    rw [goesOn.releases] at removing
    have isReleased : service.released = true :=
      removing.elim (released_of_mem sound) (released_of_mem sound)
    rw [goesOn.persistence isReleased]
    exact sound.idle removing
  · rw [goesOn.releases, goesOn.directory]
    exact sound.directory
  · rw [goesOn.releases]
    exact fun resolved => goesOn.calls (released_of_mem sound resolved) (sound.calls resolved)
  · rw [goesOn.releases]
    exact fun resolved =>
      goesOn.detections (released_of_mem sound resolved) (sound.detections resolved)

theorem GoesOn.trans (first : GoesOn service next) (second : GoesOn next last) :
    GoesOn service last := by
  constructor
  · exact second.releases.trans first.releases
  · exact second.released.trans first.released
  · exact second.directory.trans first.directory
  · intro isReleased
    rw [second.persistence (first.released.trans isReleased), first.persistence isReleased]
  · exact fun isReleased silent =>
      second.calls (first.released.trans isReleased) (first.calls isReleased silent)
  · exact fun isReleased silent =>
      second.detections (first.released.trans isReleased) (first.detections isReleased silent)

/-- A change of what releases do not look at. -/
theorem goesOn_of_eq (same :
      (next.releases, next.released, next.directory, next.persistence, next.calls,
        next.detections) = (service.releases, service.released, service.directory,
          service.persistence, service.calls, service.detections)) : GoesOn service next := by
  simp only [Prod.mk.injEq] at same
  obtain ⟨releases, released, directory, persistence, calls, detections⟩ := same
  constructor
  · exact releases
  · exact released
  · exact directory
  · exact fun _ => persistence
  · exact fun _ => calls ▸ id
  · exact fun _ => detections ▸ id

theorem goesOn_refl (service : MeetingService ρ δ) : GoesOn service service :=
  goesOn_of_eq rfl

theorem goesOn_withRun (run : Nat) (phase : JobRunPhase ρ) (service : MeetingService ρ δ) :
    GoesOn service (service.withRun run phase) :=
  goesOn_of_eq rfl

variable {call number run : Nat} {detection : Detection δ}

/-- A call of a released meeting goes on silently. -/
theorem goesOn_withCall {phase : JobCallPhase ρ}
    (silent : service.released = true → ∀ called, WaitingCall.isSilent ⟨called, phase⟩ = true) :
    GoesOn service (service.withCall call phase) := by
  constructor
  · rfl
  · rfl
  · rfl
  · exact fun _ => rfl
  · intro isReleased allSilent waiting member
    rcases mem_modify member with old | ⟨other, isIn, rfl⟩
    · exact allSilent waiting old
    · exact silent isReleased other.call
  · exact fun _ => id

theorem goesOn_withDetection {phase : DetectionPhase δ} (silent : service.released = true →
      ∀ key fingerprint, detectionIsReady ⟨key, fingerprint, phase⟩ = false) :
    GoesOn service (service.withDetection number phase) := by
  constructor
  · rfl
  · rfl
  · rfl
  · exact fun _ => rfl
  · exact fun _ => id
  · intro isReleased allSilent detection member
    rcases mem_modify member with old | ⟨other, isIn, rfl⟩
    · exact allSilent detection old
    · exact silent isReleased other.idempotencyKey other.requestFingerprint

theorem goesOn_initializeStore (service : MeetingService ρ δ) :
    GoesOn service service.initializeStore := by
  unfold initializeStore
  split
  · exact goesOn_of_eq rfl
  · exact goesOn_refl service

variable (jobId : String) (job : StoredLocalFactCheckJob ρ)

theorem goesOn_enqueue (service : MeetingService ρ δ) : GoesOn service (service.enqueue jobId) := by
  unfold enqueue
  split
  · exact goesOn_refl service
  · exact goesOn_of_eq rfl

theorem goesOn_enqueueIfRunnable (service : MeetingService ρ δ) :
    GoesOn service (service.enqueueIfRunnable jobId job) := by
  unfold enqueueIfRunnable
  split
  · exact goesOn_enqueue jobId service
  · exact goesOn_refl service

/-- A released meeting asks for no write. -/
theorem goesOn_persistJob (service : MeetingService ρ δ) : GoesOn service service.persistJob.1 := by
  unfold persistJob
  split
  · exact goesOn_refl service
  · next notReleased =>
    constructor
    · rfl
    · rfl
    · rfl
    · exact fun isReleased => absurd isReleased notReleased
    · exact fun _ => id
    · exact fun _ => id

/-- A call of a meeting that is not released goes on in any way. -/
theorem goesOn_withCall_of_not_released (goesOn : GoesOn service next)
    (notReleased : ¬service.released = true) (call : Nat) (phase : JobCallPhase ρ) :
    GoesOn service (next.withCall call phase) := by
  apply goesOn.trans
  apply goesOn_withCall
  intro isReleased
  exact absurd (goesOn.released.symm.trans isReleased) notReleased

/-- So does a call that is not silent. -/
theorem goesOn_withCall_of_loud (goesOn : GoesOn service next) {waiting : WaitingCall ρ}
    (member : waiting ∈ service.calls) (loud : waiting.isSilent = false) (call : Nat)
    (phase : JobCallPhase ρ) : GoesOn service (next.withCall call phase) := by
  constructor
  · exact goesOn.releases
  · exact goesOn.released
  · exact goesOn.directory
  · exact goesOn.persistence
  · intro _ allSilent
    rw [allSilent waiting member] at loud
    cases loud
  · exact goesOn.detections

theorem goesOn_end (service : MeetingService ρ δ) (call : Nat) :
    GoesOn service (service.withCall call .ended) :=
  goesOn_withCall fun _ _ => rfl

/-! ## Calls -/

theorem goesOn_getJob (notReleased : ¬service.released = true) (call : Nat) (jobId : String) :
    GoesOn service (service.getJob call jobId) := by
  unfold getJob
  split
  · exact goesOn_withCall_of_not_released (goesOn_refl service) notReleased call _
  · exact goesOn_withCall fun _ _ => rfl

theorem goesOn_callInitialized (call : Nat) (waiting : WaitingCall ρ) (succeeded : Bool)
    (service : MeetingService ρ δ) :
    GoesOn service (service.callInitialized call waiting succeeded) := by
  unfold callInitialized
  split
  · exact goesOn_end service call
  · next goes =>
    have notReleased : ¬service.released = true := by
      intro isReleased
      exact goes (by rw [isReleased, Bool.or_true])
    split
    · exact goesOn_getJob notReleased call _
    · split
      · exact goesOn_getJob notReleased call _
      · exact goesOn_end service call

theorem goesOn_insert (service : MeetingService ρ δ) : GoesOn service (service.insert jobId job) :=
  goesOn_of_eq rfl

theorem goesOn_readJob (call : Nat) (waiting : WaitingCall ρ)
    (found : Option (StoredLocalFactCheckJob ρ)) (service : MeetingService ρ δ) :
    GoesOn service (service.readJob call waiting found) := by
  unfold readJob
  split
  · next job =>
    split
    · exact goesOn_withCall fun _ _ => rfl
    · next notReleased =>
      exact goesOn_withCall_of_not_released (goesOn_insert _ job service) notReleased call _
  · exact goesOn_withCall fun _ _ => rfl

theorem goesOn_submitLooked (call : Nat) (stage : FactCheckStage)
    (request : StoredFactCheckRequest) (found : Option Nat) (service : MeetingService ρ δ) :
    GoesOn service (service.submitLooked call stage request found) := by
  simp only [submitLooked]
  split
  · exact goesOn_end service call
  · next notReleased =>
    split
    · next job _ =>
      split
      · exact goesOn_withCall_of_not_released (goesOn_enqueueIfRunnable _ job service)
          notReleased call _
      · exact goesOn_end service call
    · have goesOn := (goesOn_insert (service.localJobId request.idempotencyKey)
        { stage, request } service).trans (goesOn_persistJob _)
      exact goesOn_withCall_of_not_released goesOn notReleased call _

theorem goesOn_pollLooked {waiting : WaitingCall ρ} {found : Option Nat}
    (member : waiting ∈ service.calls) (isLooked : waiting.phase = .looked found) (jobId : String) :
    GoesOn service (service.pollLooked call jobId found) := by
  unfold pollLooked
  split
  · next job isJob =>
    cases found with
    | none => cases isJob
    | some number =>
      have loud : waiting.isSilent = false := by
        rw [WaitingCall.isSilent, isLooked]
      exact goesOn_withCall_of_loud (goesOn_enqueueIfRunnable jobId job service) member loud call _
  · exact goesOn_end service call

theorem goesOn_submitPersisted (call : Nat) (jobId : String) (number : Nat) (succeeded : Bool)
    (service : MeetingService ρ δ) :
    GoesOn service (service.submitPersisted call jobId number succeeded) := by
  unfold submitPersisted
  split
  · have deleted : GoesOn service (service.deleteJob jobId) := goesOn_of_eq rfl
    exact deleted.trans (goesOn_end _ call)
  · next notReleased =>
    split
    · exact goesOn_end service call
    · split
      · exact goesOn_withCall_of_not_released (goesOn_enqueue jobId service) notReleased call _
      · exact goesOn_end service call

/-! ## Runs -/

theorem goesOn_update (run number : Nat) (patch : JobPatch ρ) (caught : Bool)
    (service : MeetingService ρ δ) : GoesOn service (service.update run number patch caught) := by
  unfold update
  split
  · split
    · exact goesOn_withRun run _ service
    · exact (goesOn_persistJob service).trans (goesOn_withRun run _ _)
  · exact goesOn_withRun run _ service

theorem goesOn_runStarts (run : Nat) (jobId : String) (service : MeetingService ρ δ) :
    GoesOn service (service.runStarts run jobId) := by
  unfold runStarts
  split
  · split
    · exact goesOn_withRun run _ service
    · exact (goesOn_persistJob service).trans (goesOn_withRun run _ _)
  · exact goesOn_withRun run _ service

theorem goesOn_catchError (run number : Nat) (thrown : Thrown) (service : MeetingService ρ δ) :
    GoesOn service (service.catchError run number thrown) := by
  unfold catchError
  split
  · exact goesOn_withRun run _ service
  · exact goesOn_update run number _ true service

theorem goesOn_assign (number : Nat) (job : StoredLocalFactCheckJob ρ)
    (service : MeetingService ρ δ) : GoesOn service (service.assign jobId number job) :=
  goesOn_of_eq rfl

theorem goesOn_complete (run number : Nat) (result : AssessmentResult ρ)
    (service : MeetingService ρ δ) : GoesOn service (service.complete run number result) := by
  unfold complete
  split
  · exact goesOn_withRun run _ service
  · exact goesOn_update run number _ false service

theorem goesOn_updated {waiting : JobRun ρ} {thrown : Thrown}
    (is : service.updated run waiting thrown = some next) : GoesOn service next := by
  unfold updated at is
  split at is
  · next number job write _ =>
    split at is
    · cases is
    · split at is
      · cases is
        exact goesOn_withRun run _ service
      · cases is
        exact (goesOn_assign waiting.jobId number job service).trans (goesOn_withRun run _ _)
  · next number job caught write _ =>
    split at is
    · cases is
    · split at is
      · cases is
        split
        · exact goesOn_withRun run _ service
        · exact goesOn_catchError run number thrown service
      · split at is
        · cases is
          exact goesOn_withRun run _ service
        · cases is
          exact (goesOn_assign waiting.jobId number job service).trans (goesOn_withRun run _ _)
  · cases is

theorem goesOn_supportChecked {waiting : JobRun ρ}
    {outcome : Except Thrown (Option (Option String))}
    (is : service.supportChecked run waiting outcome = some next) : GoesOn service next := by
  unfold supportChecked at is
  split at is
  · next number _ =>
    cases is
    split
    · exact goesOn_catchError run number _ service
    · split
      · exact goesOn_withRun run _ service
      · split
        · exact goesOn_withRun run _ service
        · exact goesOn_update run number _ false service
  · cases is

theorem goesOn_synthesized {waiting : JobRun ρ} {outcome : Except Thrown (AssessmentResult ρ)}
    (is : service.synthesized run waiting outcome = some next) : GoesOn service next := by
  unfold synthesized at is
  split at is
  · next number _ =>
    cases is
    split
    · exact goesOn_catchError run number _ service
    · exact goesOn_complete run number _ service
  · cases is

/-! ## Detections -/

theorem goesOn_endDetection (service : MeetingService ρ δ) (number : Nat) :
    GoesOn service (service.withDetection number .ended) :=
  goesOn_withDetection fun _ _ _ => rfl

theorem goesOn_detectionStarts (is : service.detectionStarts number detection = some next) :
    GoesOn service next := by
  unfold detectionStarts at is
  split at is
  · cases is
    split
    · exact goesOn_endDetection service number
    · next goes =>
      split
      · split
        · exact goesOn_endDetection service number
        · apply goesOn_withDetection
          intro isReleased
          exact absurd (by rw [isReleased, Bool.or_true]) goes
      · exact goesOn_withDetection fun _ _ _ => rfl
  · cases is

theorem goesOn_detected {outcome : Except Thrown δ}
    (is : service.detected number detection outcome = some next) : GoesOn service next := by
  unfold detected at is
  split at is
  · cases is
    split
    · exact goesOn_endDetection service number
    · next response =>
      split
      · exact goesOn_endDetection service number
      · next goes =>
        have cached : GoesOn service
            { service with
              cached :=
                (detection.idempotencyKey, detection.requestFingerprint, response) ::
                  service.cached.filter fun entry => entry.1 ≠ detection.idempotencyKey } :=
          goesOn_of_eq rfl
        apply cached.trans
        apply goesOn_withDetection
        intro isReleased
        have isReleased : service.released = true := isReleased
        exact absurd (by rw [isReleased, Bool.or_true]) goes
  · cases is

end GoesOn

/-! ## Steps -/

/-- A step keeps what always holds.  Behind the end of a release it shows nothing but the ends of
others. -/
structure Seals (service next : MeetingService ρ δ) (emitted : List (MeetingEvent ρ δ)) :
    Prop where
  sound : Sound next
  resolved : .resolved ∈ service.releases → .resolved ∈ next.releases
  quiet : .resolved ∈ service.releases → ∀ event ∈ emitted, event.isReleased = true
  ends : ∀ event ∈ emitted, event.isReleased = true →
    .resolved ∈ next.releases ∧ emitted = [event]

section Steps

variable {service next : MeetingService ρ δ}

theorem seals_of_sound (sound : Sound next)
    (resolved : .resolved ∈ service.releases → .resolved ∈ next.releases) :
    Seals service next [] := by
  constructor
  · exact sound
  · exact resolved
  · exact fun _ _ member => absurd member not_mem_nil
  · exact fun _ member => absurd member not_mem_nil

theorem seals_of_goesOn (sound : Sound service) (goesOn : GoesOn service next) :
    Seals service next [] := by
  apply seals_of_sound (sound.goesOn goesOn)
  rw [goesOn.releases]
  exact id

/-- What is returned or requested is so before any release has resolved. -/
theorem seals_event (sound : Sound service) (goesOn : GoesOn service next)
    {event : MeetingEvent ρ δ} (isOther : event.isReleased = false)
    (early : .resolved ∉ service.releases) : Seals service next [event] := by
  constructor
  · exact sound.goesOn goesOn
  · exact fun resolved => absurd resolved early
  · exact fun resolved => absurd resolved early
  · intro other member isReleased
    rw [mem_singleton.mp member, isOther] at isReleased
    cases isReleased

theorem not_resolved_of_not_released (sound : Sound service)
    (notReleased : ¬service.released = true) : .resolved ∉ service.releases :=
  fun resolved => notReleased (released_of_mem sound resolved)

theorem goesOn_appendCall (service : MeetingService ρ δ) (call : JobCall) :
    GoesOn service { service with calls := service.calls ++ [{ call }] } := by
  constructor
  · rfl
  · rfl
  · rfl
  · exact fun _ => rfl
  · intro _ allSilent waiting member
    rcases mem_append.mp member with old | new
    · exact allSilent waiting old
    · rw [mem_singleton.mp new]
      rfl
  · exact fun _ => id

theorem goesOn_detectClaims (key fingerprint : String) (manual : Bool)
    (service : MeetingService ρ δ) :
    GoesOn service (service.detectClaims key fingerprint manual) := by
  unfold detectClaims
  split
  · exact goesOn_refl service
  · constructor
    · rfl
    · rfl
    · rfl
    · exact fun _ => rfl
    · exact fun _ => id
    · intro _ allSilent detection member
      rcases mem_append.mp member with old | new
      · exact allSilent detection old
      · rw [mem_singleton.mp new]
        rfl

variable {emitted : List (MeetingEvent ρ δ)} {run number release : Nat} {detection : Detection δ}
  {phase : ReleasePhase}

theorem seals_callContinues (sound : Sound service) {call : Nat} {waiting : WaitingCall ρ}
    (member : waiting ∈ service.calls)
    (is : service.callContinues call waiting = some (next, emitted)) :
    Seals service next emitted := by
  unfold callContinues at is
  split at is
  · split at is
    · cases is
      exact seals_of_goesOn sound (goesOn_callInitialized call waiting _ service)
    · cases is
  · next found isLooked =>
    split at is
    · cases is
      exact seals_of_goesOn sound (goesOn_submitLooked call _ _ found service)
    · cases is
      exact seals_of_goesOn sound (goesOn_pollLooked member isLooked _)
  · split at is
    · cases is
      exact seals_of_goesOn sound (goesOn_submitPersisted call _ _ _ service)
    · cases is
  · next response isReturning =>
    cases is
    apply seals_event sound (goesOn_end service call) rfl
    intro resolved
    have silent := sound.calls resolved waiting member
    rw [WaitingCall.isSilent, isReturning] at silent
    cases silent
  · cases is

theorem seals_evidenceRetrieved (sound : Sound service) {waiting : JobRun ρ}
    {outcome : Except Thrown Bool}
    (is : service.evidenceRetrieved run waiting outcome = some (next, emitted)) :
    Seals service next emitted := by
  unfold evidenceRetrieved at is
  split at is
  · next number _ =>
    have is := Option.some.inj is
    split at is
    · cases is
      exact seals_of_goesOn sound (goesOn_catchError run number _ service)
    · split at is
      · cases is
        exact seals_of_goesOn sound (goesOn_withRun run _ service)
      · next notReleased =>
        split at is
        · cases is
          exact seals_of_goesOn sound (goesOn_update run number _ false service)
        · split at is
          · cases is
            exact seals_event sound (goesOn_withRun run _ service) rfl
              (not_resolved_of_not_released sound notReleased)
          · cases is
            exact seals_of_goesOn sound (goesOn_withRun run _ service)
  · cases is

theorem isErased_iff : service.isErased = true ↔ .resolved ∈ service.releases := by
  rw [isErased, contains_iff_mem]

theorem not_resolved_of_isErased (early : service.isErased = false) :
    .resolved ∉ service.releases := by
  rw [← isErased_iff, early]
  exact Bool.false_ne_true

section

variable (sound : Sound service)
include sound

theorem seals_warmed {waiting : JobRun ρ} (isRun : service.runs[run]? = some waiting)
    (is : service.warmed run waiting = some (next, emitted))
    (inTime : AsksInTime (ρ := ρ) (δ := δ) service (.warmed run)) : Seals service next emitted := by
  unfold warmed at is
  split at is
  · next number isWarming =>
    cases is
    have isRun' : service.runs[run]? = some ⟨waiting.jobId, .warming number⟩ := by
      rw [isRun, ← isWarming]
    simp only [AsksInTime, isRun'] at inTime
    exact seals_event sound (goesOn_withRun run _ service) rfl (not_resolved_of_isErased inTime)
  · cases is

theorem seals_attempted {waiting : JobRun ρ} {outcome : Except Thrown (AssessmentResult ρ)}
    {conservative : AssessmentResult ρ} (isRun : service.runs[run]? = some waiting)
    (is : service.attempted run waiting outcome conservative = some (next, emitted))
    (inTime : AsksInTime (ρ := ρ) (δ := δ) service (.attempted run outcome conservative)) :
    Seals service next emitted := by
  unfold attempted at is
  split at is
  · next number repair isAttempting =>
    have is := Option.some.inj is
    split at is
    · cases is
      exact seals_of_goesOn sound (goesOn_complete run number _ service)
    · split at is
      · cases is
        exact seals_of_goesOn sound (goesOn_catchError run number _ service)
      · next isInvalid =>
        split at is
        · cases is
          exact seals_of_goesOn sound (goesOn_complete run number _ service)
        · next isFirst =>
          cases is
          have isRun' : service.runs[run]? =
              some ⟨waiting.jobId, .attempting number false⟩ := by
            rw [isRun, ← Bool.eq_false_iff.mpr isFirst, ← isAttempting]
          simp only [AsksInTime, isRun'] at inTime
          apply seals_event sound (goesOn_withRun run _ service) rfl
          apply not_resolved_of_isErased
          apply inTime
          simpa using isInvalid
  · cases is

theorem seals_detectionSupported {available : Bool}
    (is : service.detectionSupported number detection available = some (next, emitted)) :
    Seals service next emitted := by
  unfold detectionSupported at is
  split at is
  · have is := Option.some.inj is
    split at is
    · cases is
      exact seals_of_goesOn sound (goesOn_endDetection service number)
    · next goes =>
      cases is
      apply seals_event sound (goesOn_withDetection fun _ _ _ => rfl) rfl
      apply not_resolved_of_not_released sound
      intro isReleased
      exact goes (by rw [isReleased, Bool.or_true, Bool.true_or])
  · cases is

theorem seals_detectionReturns (member : detection ∈ service.detections)
    (is : service.detectionReturns number detection = some (next, emitted)) :
    Seals service next emitted := by
  unfold detectionReturns at is
  split at is
  · next response isReturning =>
    cases is
    apply seals_event sound (goesOn_endDetection service number) rfl
    intro resolved
    have silent := sound.detections resolved detection member
    rw [detectionIsReady, isReturning] at silent
    cases silent
  · cases is

/-! ### Releases -/

/-- A release that enters a phase before the last one leaves the meeting sound. -/
theorem Sound.enters {entered : ReleasePhase} {phases : List ReleasePhase}
    {jobs : List (String × Nat)} {cached : List (String × String × δ)} {released directory : Bool}
    (isReleased : released = true)
    (others : ∀ phase ∈ phases, phase ∈ service.releases ∨ phase = entered)
    (unresolved : entered ≠ .resolved)
    (awaited : ∀ writes, entered = .awaiting writes → service.persistence.asked ≤ writes)
    (idle : entered = .removing → service.persistence.isIdle = true)
    (stays : service.directory = false → directory = false) :
    Sound { service with jobs, released, directory, cached, releases := phases } := by
  have before : .resolved ∈ phases → .resolved ∈ service.releases :=
    fun resolved => (others _ resolved).resolve_right unresolved.symm
  constructor
  · exact fun _ => isReleased
  · intro writes member
    rcases others _ member with isOld | isNew
    · exact sound.awaited writes isOld
    · exact awaited writes isNew.symm
  · rintro (removing | resolved)
    · rcases others _ removing with isOld | isNew
      · exact sound.idle (Or.inl isOld)
      · exact idle isNew.symm
    · exact sound.idle (Or.inr (before resolved))
  · exact fun resolved => stays (sound.directory (before resolved))
  · exact fun resolved => sound.calls (before resolved)
  · exact fun resolved => sound.detections (before resolved)

theorem seals_releaseMeeting : Seals service service.releaseMeeting [] := by
  have flagged : Sound
      { service with
        released := true
        cached := []
        releases := service.releases ++ [.initializing] } := by
    refine @Sound.enters _ _ service sound .initializing _ _ _ _ _ rfl ?_ nofun nofun nofun id
    exact fun phase member => (mem_append.mp member).imp_right mem_singleton.mp
  have initialized := goesOn_initializeStore
    { service with
      released := true
      cached := []
      releases := service.releases ++ [.initializing] }
  apply seals_of_sound (flagged.goesOn initialized)
  intro resolved
  rw [initialized.releases]
  exact mem_append_left _ resolved

end

/-- A release that goes on leaves the others alone. -/
theorem mem_set_of_ne {phases : List ReleasePhase} {index : Nat} {other : ReleasePhase}
    (found : phases[index]? = some phase) (member : other ∈ phases) (differs : other ≠ phase)
    (next : ReleasePhase) : other ∈ phases.set index next := by
  obtain ⟨place, isPlace⟩ := mem_iff_getElem?.mp member
  apply mem_iff_getElem?.mpr
  refine ⟨place, ?_⟩
  rw [getElem?_set_ne]
  · exact isPlace
  · rintro rfl
    rw [found] at isPlace
    exact differs (Option.some.inj isPlace).symm

theorem seals_releaseContinues (sound : Sound service)
    (found : service.releases[release]? = some phase)
    (is : service.releaseContinues release phase = some next) : Seals service next [] := by
  have isReleased := released_of_mem sound (mem_of_getElem? found)
  unfold releaseContinues at is
  split at is
  · split at is
    · cases is
      apply seals_of_sound
      · refine @Sound.enters _ _ service sound (.awaiting service.persistence.asked) _ _ _ _ _
          isReleased (fun _ => mem_or_eq_of_mem_set) nofun ?_ nofun id
        rintro writes ⟨⟩
        exact Nat.le_refl _
      · exact fun resolved => mem_set_of_ne found resolved nofun _
    · cases is
      apply seals_of_sound
      · exact @Sound.enters _ _ service sound .rejected _ _ _ _ _ isReleased
          (fun _ => mem_or_eq_of_mem_set) nofun nofun nofun id
      · exact fun resolved => mem_set_of_ne found resolved nofun _
    · cases is
  · next writes =>
    split at is
    · next written =>
      cases is
      -- the writes that were asked for are all settled
      have isIdle : service.persistence.isIdle = true :=
        MeetingPersistence.isIdle_of_asked_le
          (Nat.le_trans (sound.awaited writes (mem_of_getElem? found)) written)
      apply seals_of_sound
      · exact @Sound.enters _ _ service sound .removing _ _ _ _ _ isReleased
          (fun _ => mem_or_eq_of_mem_set) nofun nofun (fun _ => isIdle) id
      · exact fun resolved => mem_set_of_ne found resolved nofun _
    · cases is
  · cases is

/-- At rest every call is silent. -/
theorem isSilent_of_rests (rests : service.rests = true) :
    ∀ waiting ∈ service.calls, waiting.isSilent = true := by
  intro waiting member
  simp only [MeetingService.rests, Bool.and_eq_true, all_eq_true] at rests
  have notReady := rests.1.1.1.2 waiting member
  unfold WaitingCall.isSilent
  split
  · next number isLooked =>
    rw [callIsReady, isLooked] at notReady
    cases notReady
  · next response isReturning =>
    rw [callIsReady, isReturning] at notReady
    cases notReady
  · rfl

theorem detectionIsReady_of_rests (rests : service.rests = true) :
    ∀ detection ∈ service.detections, detectionIsReady detection = false := by
  intro detection member
  simp only [MeetingService.rests, Bool.and_eq_true, all_eq_true] at rests
  simpa using rests.1.2 detection member

theorem seals_removed (sound : Sound service) {succeeded left : Bool} (rests : service.rests = true)
    (found : service.releases[release]? = some phase)
    (is : service.removed release phase succeeded left = some (next, emitted)) :
    Seals service next emitted := by
  have isReleased := released_of_mem sound (mem_of_getElem? found)
  unfold removed at is
  split at is
  · have isIdle := sound.idle (Or.inl (mem_of_getElem? found))
    have is := Option.some.inj is
    split at is
    · next succeeds =>
      cases is
      have resolvedNow : .resolved ∈ service.releases.set release .resolved :=
        mem_set (List.getElem?_eq_some_iff.mp found).1 _
      constructor
      · constructor
        · exact fun _ => isReleased
        · intro writes member
          rcases mem_or_eq_of_mem_set member with isOld | isNew
          · exact sound.awaited writes isOld
          · cases isNew
        · exact fun _ => isIdle
        · simp [withRelease, afterRemoval, succeeds]
        · exact fun _ => @isSilent_of_rests _ _ service rests
        · exact fun _ => @detectionIsReady_of_rests _ _ service rests
      · exact fun _ => resolvedNow
      · intro _ event member
        rw [mem_singleton.mp member]
        rfl
      · intro event member _
        rw [mem_singleton.mp member]
        exact ⟨resolvedNow, rfl⟩
    · next fails =>
      cases is
      apply seals_of_sound
      · refine @Sound.enters _ _ service sound .rejected _ _ _ _ _ isReleased
          (fun _ => mem_or_eq_of_mem_set) nofun nofun nofun ?_
        intro gone
        simp [afterRemoval, fails, gone]
      · exact fun resolved => mem_set_of_ne found resolved nofun _
  · cases is

/-! ### Writes -/

/-- A write that goes on is awaited by every release that has not come to the removal. -/
theorem seals_write (sound : Sound service) (busy : service.persistence.isIdle = false)
    {persistence : MeetingPersistence} (asked : persistence.asked = service.persistence.asked)
    (directory : Bool) :
    Seals service { service with persistence := persistence, directory := directory } [] := by
  have notRemoving : ¬(.removing ∈ service.releases ∨ .resolved ∈ service.releases) := by
    intro removing
    rw [sound.idle removing] at busy
    cases busy
  apply seals_of_sound
  · constructor
    · exact sound.released
    · intro writes member
      rw [asked]
      exact sound.awaited writes member
    · exact fun removing => absurd removing notRemoving
    · exact fun resolved => absurd (Or.inr resolved) notRemoving
    · exact sound.calls
    · exact sound.detections
  · exact id

theorem seals_silent {next? : Option (MeetingService ρ δ)} {result : MeetingService ρ δ}
    (is : silent next? = some (result, emitted))
    (seals : ∀ next, next? = some next → Seals service next []) : Seals service result emitted := by
  obtain ⟨next, isNext, isResult⟩ := Option.map_eq_some_iff.mp is
  obtain ⟨rfl, rfl⟩ := Prod.mk.inj isResult
  exact seals next isNext

theorem seals_silent_goesOn {α : Type} (sound : Sound service) {found? : Option α}
    {goes : α → Option (MeetingService ρ δ)} {result : MeetingService ρ δ}
    (is : silent (found? >>= goes) = some (result, emitted))
    (goesOn : ∀ found {next}, goes found = some next → GoesOn service next) :
    Seals service result emitted := by
  apply seals_silent is
  intro next is
  obtain ⟨found, -, is⟩ := Option.bind_eq_some_iff.mp is
  exact seals_of_goesOn sound (goesOn found is)

/-- Every step that asks in time keeps a released meeting erased. -/
theorem seals_step (sound : Sound service) {action : MeetingAction ρ δ}
    (is : step service action = some (next, emitted)) (inTime : AsksInTime service action) :
    Seals service next emitted := by
  cases action with
  | call call =>
    cases is
    exact seals_of_goesOn sound ((goesOn_appendCall service call).trans (goesOn_initializeStore _))
  | detectClaims key fingerprint manual =>
    cases is
    exact seals_of_goesOn sound (goesOn_detectClaims key fingerprint manual service)
  | releaseMeeting =>
    cases is
    exact seals_releaseMeeting sound
  | dispose =>
    cases is
    exact seals_of_goesOn sound (goesOn_of_eq rfl)
  | callContinues call =>
    obtain ⟨waiting, found, is⟩ := Option.bind_eq_some_iff.mp is
    exact seals_callContinues sound (mem_of_getElem? found) is
  | detectionReturns number =>
    obtain ⟨detection, found, is⟩ := Option.bind_eq_some_iff.mp is
    exact seals_detectionReturns sound (mem_of_getElem? found) is
  | releaseContinues release =>
    apply seals_silent is
    intro next is
    obtain ⟨phase, found, is⟩ := Option.bind_eq_some_iff.mp is
    exact seals_releaseContinues sound found is
  | writeStarts =>
    obtain ⟨canStart, is⟩ := Option.ite_none_right_eq_some.mp is
    cases is
    apply seals_write sound _ (MeetingPersistence.asked_start service.released canStart)
    apply Bool.eq_false_iff.mpr
    intro idle
    rw [MeetingPersistence.not_canStart_of_isIdle idle] at canStart
    cases canStart
  | updated run thrown =>
    exact seals_silent_goesOn sound is fun _ => goesOn_updated
  | initialized succeeded =>
    obtain ⟨-, is⟩ := Option.ite_none_right_eq_some.mp is
    cases is
    exact seals_of_goesOn sound (goesOn_of_eq rfl)
  | read call found =>
    simp only [step] at is
    split at is
    · obtain ⟨-, is⟩ := Option.ite_none_right_eq_some.mp is
      cases is
      exact seals_of_goesOn sound (goesOn_readJob call _ found service)
    · cases is
  | operated succeeded left =>
    simp only [step] at is
    split at is
    · next operation isCurrent =>
      obtain ⟨-, is⟩ := Option.ite_none_right_eq_some.mp is
      cases is
      have busy : service.persistence.current.isSome = true := by
        rw [isCurrent]
        rfl
      apply seals_write sound _ (MeetingPersistence.asked_operated _ succeeded operation busy)
      apply Bool.eq_false_iff.mpr
      intro idle
      rw [MeetingPersistence.current_of_isIdle idle] at busy
      cases busy
    · cases is
  | removed release succeeded left =>
    obtain ⟨rests, is⟩ := Option.ite_none_right_eq_some.mp is
    obtain ⟨phase, found, is⟩ := Option.bind_eq_some_iff.mp is
    exact seals_removed sound rests found is
  | runStarts run =>
    simp only [step] at is
    split at is
    · cases is
      exact seals_of_goesOn sound (goesOn_runStarts run _ service)
    · cases is
  | runGone run =>
    refine seals_silent_goesOn sound is fun _ _ is => ?_
    unfold runGone at is
    split at is
    · cases is
      exact goesOn_of_eq rfl
    · cases is
  | supportChecked run outcome =>
    exact seals_silent_goesOn sound is fun _ => goesOn_supportChecked
  | evidenceRetrieved run outcome =>
    obtain ⟨waiting, -, is⟩ := Option.bind_eq_some_iff.mp is
    exact seals_evidenceRetrieved sound is
  | warmed run =>
    obtain ⟨waiting, found, is⟩ := Option.bind_eq_some_iff.mp is
    exact seals_warmed sound found is inTime
  | synthesized run outcome =>
    exact seals_silent_goesOn sound is fun _ => goesOn_synthesized
  | attempted run outcome conservative =>
    obtain ⟨waiting, found, is⟩ := Option.bind_eq_some_iff.mp is
    exact seals_attempted sound found is inTime
  | detectionStarts number =>
    exact seals_silent_goesOn sound is fun _ => goesOn_detectionStarts
  | detectionSupported number available =>
    obtain ⟨detection, -, is⟩ := Option.bind_eq_some_iff.mp is
    exact seals_detectionSupported sound is
  | detected number outcome =>
    exact seals_silent_goesOn sound is fun _ => goesOn_detected
  | evicted key =>
    cases is
    exact seals_of_goesOn sound (goesOn_of_eq rfl)

end Steps

end MeetingService

/-! ## Runs -/

open MeetingService

/-- What holds at every moment of a run. -/
structure Sealed (config : Config (MeetingService ρ δ) (MeetingEvent ρ δ)) : Prop where
  sound : Sound config.state
  resolved : (∃ event ∈ config.trace, event.isReleased = true) →
    .resolved ∈ config.state.releases
  quiet : ∀ before event after, config.trace = before ++ event :: after →
    event.isReleased = true → ∀ later ∈ after, later.isReleased = true

theorem Sealed.step {config next : Config (MeetingService ρ δ) (MeetingEvent ρ δ)}
    {emitted : List (MeetingEvent ρ δ)} (isSealed : Sealed config)
    (seals : Seals config.state next.state emitted)
    (isTrace : next.trace = config.trace ++ emitted) : Sealed next := by
  constructor
  · exact seals.sound
  · rintro ⟨event, member, isReleased⟩
    rw [isTrace] at member
    rcases mem_append.mp member with old | new
    · exact seals.resolved (isSealed.resolved ⟨event, old, isReleased⟩)
    · exact (seals.ends event new isReleased).1
  · intro before event after split isReleased later isLater
    rw [isTrace] at split
    rcases append_eq_append_iff.mp split with ⟨more, isBefore, isEmitted⟩ |
      ⟨more, isOld, isAfter⟩
    · -- the end of the release is what the step shows, and nothing follows it
      have alone := (seals.ends event (by rw [isEmitted]; simp) isReleased).2
      rw [isEmitted] at alone
      have isEmpty : after = [] := by
        have length := congrArg length alone
        simp only [length_append, length_cons, length_nil] at length
        exact length_eq_zero_iff.mp (by omega)
      rw [isEmpty] at isLater
      cases isLater
    · cases more with
      | nil =>
        rw [nil_append] at isAfter
        have alone := (seals.ends event (by rw [← isAfter]; simp) isReleased).2
        rw [← isAfter] at alone
        rw [(cons.inj alone).2] at isLater
        cases isLater
      | cons first rest =>
        obtain ⟨rfl, rfl⟩ := cons.inj isAfter
        have resolved := isSealed.resolved ⟨event, by rw [isOld]; simp, isReleased⟩
        rcases mem_append.mp isLater with old | new
        · exact isSealed.quiet before event rest isOld isReleased later old
        · exact seals.quiet resolved later new

/-- While the local model is asked in time, a released meeting stays erased. -/
theorem erased_of_reaches (texts : FactCheckTexts) (mode : LiveFactCheckMode)
    (localJobId : String → String) (directory : Bool)
    {config : Config (MeetingService ρ δ) (MeetingEvent ρ δ)}
    (reaches : Reaches step asksInTime { texts, mode, localJobId, directory }
      config) : Erased config := by
  have isSealed : Sealed config := by
    apply reaches.invariant Sealed
    · constructor
      · constructor
        · exact fun some => absurd rfl some
        · nofun
        · rintro (member | member) <;> cases member
        · nofun
        · nofun
        · nofun
      · rintro ⟨event, member, -⟩
        cases member
      · intro before event after split
        cases before <;> cases split
    · intro config next action _ isSealed advanced inTime
      obtain ⟨emitted, stepped, isTrace⟩ := advance_eq_some_iff.mp advanced
      exact isSealed.step (seals_step isSealed.sound stepped inTime) isTrace
  constructor
  · exact fun ended => isSealed.sound.directory (isSealed.resolved ended)
  · exact isSealed.quiet

/-! ## Two runs -/

instance (service : MeetingService ρ δ) (action : MeetingAction ρ δ) :
    Decidable (AsksInTime service action) := by
  cases action with
  | warmed run =>
    unfold AsksInTime
    dsimp only
    split <;> infer_instance
  | attempted run outcome conservative =>
    cases outcome with
    | error thrown =>
      unfold AsksInTime
      dsimp only
      split <;> infer_instance
    | ok result => exact inferInstanceAs (Decidable True)
  | _ => exact inferInstanceAs (Decidable True)

instance (config next : Config (MeetingService ρ δ) (MeetingEvent ρ δ))
    (action : MeetingAction ρ δ) : Decidable (asksInTime config action next) :=
  inferInstanceAs (Decidable (AsksInTime config.state action))

def sampleTexts : FactCheckTexts :=
  ⟨"gemma4", "Web evidence.", "Wikimedia evidence."⟩

def sampleRequest : StoredFactCheckRequest where
  meetingId := "meeting"
  claimId := "claim"
  claimVersionId := "version"
  idempotencyKey := "key"
  exactQuote := "Water boils at ninety degrees."
  normalizedClaim := "Water boils at 90 degrees."
  origin := .manual

def sampleJobId : String := "local-fact-0123456789012345678901234567890123456789"

/-- A meeting whose claims are checked by the local model. -/
def localMeeting : MeetingService Unit Unit where
  texts := sampleTexts
  mode := .localWikimedia
  localJobId := fun _ => sampleJobId
  directory := false

/-- A write of the persistence queue, from its start to its end. -/
def writeActions : List (MeetingAction Unit Unit) :=
  .writeStarts :: List.replicate 6 (.operated true true)

/-- A claim is submitted, and its run waits for the warm-up of the model. -/
def warmingActions : List (MeetingAction Unit Unit) :=
  [.call (.submit .quick sampleRequest), .initialized true, .callContinues 0, .read 0 none,
    .callContinues 0] ++ writeActions ++
    [.callContinues 0, .callContinues 0, .runStarts 0] ++ writeActions ++
    [.updated 0 none, .supportChecked 0 (.ok none), .evidenceRetrieved 0 (.ok true)]

/-- The meeting is released. -/
def releaseActions : List (MeetingAction Unit Unit) :=
  [.releaseMeeting, .releaseContinues 0, .releaseContinues 0, .removed 0 true false]

/-- The model is asked before the release. -/
def askedInTimeRun : List (MeetingAction Unit Unit) :=
  warmingActions ++ [.warmed 0] ++ releaseActions

theorem erased_askedInTimeRun :
    ∃ config, exec step (Config.initial localMeeting) askedInTimeRun =
      some config ∧ Erased config := by
  obtain ⟨config, executed⟩ : ∃ config,
      exec step (Config.initial localMeeting) askedInTimeRun = some config :=
    Option.isSome_iff_exists.mp (by decide +kernel)
  exact ⟨config, executed, erased_of_reaches sampleTexts .localWikimedia (fun _ => sampleJobId)
    false (reaches_of_exec askedInTimeRun (by decide +kernel) executed)⟩

/-- The model is asked after the warm-up, behind the end of the release. -/
def askedLateRun : List (MeetingAction Unit Unit) :=
  warmingActions ++ releaseActions ++ [.warmed 0]

theorem not_erased_askedLateRun :
    ∃ config, Reaches step (fun _ _ _ => True) localMeeting config ∧
      config.trace =
        [.jobReturned (publicJob { stage := .quick, request := sampleRequest }), .released,
          .synthesisRequested sampleJobId] ∧
      ¬Erased config := by
  obtain ⟨config, reaches, isTrace⟩ := exists_reaches_of_exec step
    (fun _ _ _ => True) localMeeting
    (fun config => config.trace =
      [.jobReturned (publicJob { stage := .quick, request := sampleRequest }), .released,
        .synthesisRequested sampleJobId])
    askedLateRun (by decide +kernel) (by decide +kernel)
  refine ⟨config, reaches, isTrace, fun erased => ?_⟩
  have late := erased.silent [_] .released [_] isTrace rfl _ (.head _)
  cases late

end Obelus.Live.FactCheck
