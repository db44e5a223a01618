import Obelus.Live.Capture.Core

/-!
# Effects of capture segments

What a synchronous segment does to the lifecycle, the timeline, the recorded
sequences and the interval timers, said once for every action.  A view keeps
these parts of a coordinator and a mark is an observation that speaks of them;
`Effect` lists the changes of a view with their marks, and `step_effect` shows
that every segment has one of these effects.
-/

namespace Obelus.Live.Capture

open Obelus.Data

structure CaptureView where
  lifecycle : LiveCaptureLifecycle
  timelineEvents : List LiveTimelineEvent
  elapsedMs : Number
  sequences : JsMap String CaptureSessionSequence
  timer : Option Nat
  intervals : List Nat

def LiveCaptureCoordinator.view (coordinator : LiveCaptureCoordinator) : CaptureView where
  lifecycle := coordinator.snapshot.lifecycle
  timelineEvents := coordinator.snapshot.timelineEvents
  elapsedMs := coordinator.snapshot.elapsedMs
  sequences := coordinator.sequences
  timer := coordinator.timer
  intervals := coordinator.intervals

namespace CaptureView

def clearTimers (view : CaptureView) : CaptureView :=
  { view with
    timer := none
    intervals := view.intervals.filter fun handle => some handle ≠ view.timer }

def recordSequence (view : CaptureView) (frame : LiveAudioFrame) : CaptureView :=
  { view with
    sequences := view.sequences.set frame.captureSessionId
      { lastSequence := frame.sequence
        lastMeetingTimeMs := frame.meetingTimeMs
        lastDurationMs := frame.durationMs
        workletDroppedFrames := frame.workletDroppedFrames } }

end CaptureView

/-- An observation that speaks of a view. -/
def CaptureObservation.isMark : CaptureObservation → Bool
  | .started _ _ => true
  | .cleared => true
  | .stopping => true
  | .handed _ _ => true
  | .written _ _ => true
  | _ => false

def marks (observations : List CaptureObservation) : List CaptureObservation :=
  observations.filter CaptureObservation.isMark

@[simp]
theorem marks_nil : marks [] = [] :=
  rfl

@[simp]
theorem marks_cons (observation : CaptureObservation) (rest : List CaptureObservation) :
    marks (observation :: rest) =
      if observation.isMark then observation :: marks rest else marks rest := by
  simp [marks, List.filter_cons]

@[simp]
theorem marks_append (front back : List CaptureObservation) :
    marks (front ++ back) = marks front ++ marks back := by
  simp [marks]

/-- A reading of a history that only marks change needs only the marks. -/
theorem foldl_eq_foldl_marks {γ : Type} {read : γ → CaptureObservation → γ}
    (unmarked : ∀ value observation, observation.isMark = false → read value observation = value)
    (observations : List CaptureObservation) (value : γ) :
    observations.foldl read value = (marks observations).foldl read value := by
  induction observations generalizing value with
  | nil => rfl
  | cons observation rest ih =>
    cases marked : observation.isMark with
    | true => simp [marked, ih]
    | false => simp [marked, ih, unmarked value observation marked]

/-- The guards of `appendAudio` before it hands a frame to the store. -/
def Accepts (coordinator : LiveCaptureCoordinator) (frame : LiveAudioFrame)
    (senderWebContentsId : Nat) : Prop :=
  coordinator.snapshot.ownerWebContentsId = some senderWebContentsId ∧
    coordinator.snapshot.lifecycle ≠ .paused ∧
    coordinator.appendError frame = none ∧
    ∀ prior ∈ coordinator.sequences.get? frame.captureSessionId,
      prior.lastSequence < frame.sequence ∧
        prior.lastMeetingTimeMs ≤ frame.meetingTimeMs + frame.durationMs

/-- The guards of `stop` and of `ownerDestroyed` before they enter `finalize`. -/
def Finalizes (coordinator : LiveCaptureCoordinator) : CaptureAction → Prop
  | .stop webContentsId | .ownerDestroyed webContentsId =>
    coordinator.snapshot.ownerWebContentsId = some webContentsId ∧
      coordinator.isActive ∧ coordinator.stopPromise = false ∧
      coordinator.finalizableMeeting.isSome
  | _ => False

instance (coordinator : LiveCaptureCoordinator) (frame : LiveAudioFrame) (sender : Nat) :
    Decidable (Accepts coordinator frame sender) :=
  inferInstanceAs (Decidable (_ ∧ _ ∧ _ ∧ _))

instance (coordinator : LiveCaptureCoordinator) (action : CaptureAction) :
    Decidable (Finalizes coordinator action) := by
  unfold Finalizes
  cases action <;> infer_instance

open LiveCaptureSnapshot in
/-- The changes a segment may make to a view, with their marks. -/
inductive Effect (coordinator : LiveCaptureCoordinator) :
    CaptureAction → CaptureView → List CaptureObservation → Prop
  | settled {action : CaptureAction} {elapsedMs : Number}
      (later : coordinator.view.elapsedMs ≤ elapsedMs) :
      Effect coordinator action { coordinator.view with elapsedMs } []
  | started {config : LiveCaptureStartConfig} {owner : Nat}
      {sources : List LiveAudioSourceKind} {elapsedMs : Number} (later : 0 ≤ elapsedMs) :
      Effect coordinator (.start config owner)
        { coordinator.view.clearTimers with
          lifecycle := .starting
          timelineEvents := []
          elapsedMs
          sequences := JsMap.empty }
        [.started config.meetingId sources]
  | cleared {action : CaptureAction}
      {elapsedMs : Number}
      (clears : (∃ meetingId, action = .clearFinalizedMeeting meetingId) ∨
        ∃ meetingId, action = .acknowledgeAudioAssetsPersisted meetingId)
      (later : 0 ≤ elapsedMs) :
      Effect coordinator action
        { coordinator.view.clearTimers with
          lifecycle := .idle
          timelineEvents := []
          elapsedMs
          sequences := JsMap.empty }
        [.cleared]
  | handed {frame : LiveAudioFrame} {sender : Nat} {createId : String}
      (accepted : Accepts coordinator frame sender) :
      Effect coordinator (.appendAudio frame sender createId)
        { coordinator.view with
          timelineEvents :=
            let prior := coordinator.sequences.get? frame.captureSessionId
            if LiveCaptureCoordinator.droppedFrames prior frame > 0 then
              coordinator.view.timelineEvents ++
                [LiveCaptureCoordinator.gapEvent createId prior frame]
            else coordinator.view.timelineEvents }
        [.handed coordinator.nextCall frame]
  | written {call : Nat} {bytesBySource : PerSource Nat} {frame : LiveAudioFrame}
      {droppedFrames : Nat} {elapsedMs : Number}
      (awaited : coordinator.awaiting call = some (.appendFrame frame none droppedFrames))
      (later : coordinator.view.elapsedMs ≤ elapsedMs) :
      Effect coordinator (.frameWritten call bytesBySource)
        { coordinator.view.recordSequence frame with elapsedMs }
        [.written call frame]
  | activated {call : Nat} {bytesBySource : PerSource Nat} {frame : LiveAudioFrame}
      {activationEpochMs : Number} {droppedFrames : Nat} {elapsedMs : Number} {handle : Nat}
      (awaited : coordinator.awaiting call =
        some (.appendFrame frame (some activationEpochMs) droppedFrames)) :
      Effect coordinator (.frameWritten call bytesBySource)
        { coordinator.view.recordSequence frame with
          lifecycle := .recording
          elapsedMs
          timer := some handle
          intervals := coordinator.view.intervals ++ [handle] }
        [.written call frame]
  | paused {sender : Nat} {createId : String} {startMs elapsedMs : Number}
      (recording : coordinator.view.lifecycle = .recording)
      (later : startMs ≤ elapsedMs) :
      Effect coordinator (.pause sender createId)
        { coordinator.view with
          lifecycle := .paused
          timelineEvents := coordinator.view.timelineEvents ++
            [⟨createId, .pause, startMs, none, none⟩]
          elapsedMs }
        []
  | resumed {sender : Nat} {createId : String} {endMs elapsedMs : Number}
      (paused : coordinator.view.lifecycle = .paused)
      (laterEnd : coordinator.view.elapsedMs ≤ endMs)
      (later : coordinator.view.elapsedMs ≤ elapsedMs) :
      Effect coordinator (.resume sender createId)
        { coordinator.view with
          lifecycle := .recording
          timelineEvents := closeLast .pause endMs coordinator.view.timelineEvents ++
            [⟨createId, .resume, endMs, some endMs, none⟩]
          elapsedMs }
        []
  | stopping {action : CaptureAction} {elapsedMs : Number}
      (finalizes : Finalizes coordinator action)
      (later : coordinator.capturedElapsedMs ≤ elapsedMs) :
      Effect coordinator action
        { coordinator.view.clearTimers with
          lifecycle := .stopping
          timelineEvents := closeLast .pause coordinator.capturedElapsedMs
            coordinator.view.timelineEvents
          elapsedMs }
        [.stopping]
  | slept {createId : String} {elapsedMs : Number}
      (later : coordinator.view.elapsedMs ≤ elapsedMs) :
      Effect coordinator (.markSystemSleep createId)
        { coordinator.view with
          timelineEvents := coordinator.view.timelineEvents ++
            [⟨createId, .sleep, coordinator.currentElapsedMs, none, none⟩]
          elapsedMs }
        []
  | woken {createId : String} {elapsedMs : Number} (active : coordinator.isActive)
      (later : coordinator.view.elapsedMs ≤ elapsedMs) :
      Effect coordinator (.markSystemResume createId)
        { coordinator.view with
          timelineEvents :=
            closeLast .sleep coordinator.currentElapsedMs coordinator.view.timelineEvents ++
              [⟨createId, .wake, coordinator.currentElapsedMs,
                some coordinator.currentElapsedMs, none⟩]
          elapsedMs }
        []
  | writeFailed {call : Nat} {elapsedMs : Number}
      (later : coordinator.view.elapsedMs ≤ elapsedMs) :
      Effect coordinator (.writeFailed call)
        { coordinator.view.clearTimers with
          timelineEvents := closeLast .pause elapsedMs coordinator.view.timelineEvents
          elapsedMs }
        []
  | failed {action : CaptureAction} {elapsedMs : Number}
      (later : coordinator.view.elapsedMs ≤ elapsedMs) :
      Effect coordinator action
        { coordinator.view.clearTimers with
          lifecycle := .error
          elapsedMs }
        []
  | finalized {action : CaptureAction} {lifecycle : FinalLifecycle} {elapsedMs : Number}
      (later : coordinator.view.elapsedMs ≤ elapsedMs) :
      Effect coordinator action
        { coordinator.view with
          lifecycle := lifecycle.toLifecycle
          elapsedMs }
        []

theorem Effect.of_eq {coordinator : LiveCaptureCoordinator} {action : CaptureAction}
    {view view' : CaptureView} {observed observed' : List CaptureObservation}
    (effect : Effect coordinator action view observed) (viewEq : view' = view)
    (observedEq : observed' = observed) : Effect coordinator action view' observed' := by
  rw [viewEq, observedEq]
  exact effect

namespace LiveCaptureCoordinator

/-! ## Segments that only let time pass -/

theorem elapsedMs_le_currentElapsedMs (coordinator : LiveCaptureCoordinator) :
    coordinator.snapshot.elapsedMs ≤ coordinator.currentElapsedMs := by
  unfold currentElapsedMs
  cases coordinator.snapshot.startedAtEpochMs with
  | none => exact le_refl _
  | some startedAtEpochMs => exact le_max_left _ _

/-- The elapsed time after `refreshElapsed`. -/
def refreshedElapsedMs (coordinator : LiveCaptureCoordinator) : Number :=
  if coordinator.snapshot.lifecycle ∈ [LiveCaptureLifecycle.starting, .recording, .paused] then
    coordinator.currentElapsedMs
  else coordinator.snapshot.elapsedMs

theorem refreshElapsed_eq (coordinator : LiveCaptureCoordinator) : coordinator.refreshElapsed =
      { coordinator with
        snapshot := { coordinator.snapshot with
          elapsedMs := coordinator.refreshedElapsedMs } } := by
  unfold refreshElapsed refreshedElapsedMs
  split <;> rfl

theorem elapsedMs_le_refreshedElapsedMs (coordinator : LiveCaptureCoordinator) :
    coordinator.snapshot.elapsedMs ≤ coordinator.refreshedElapsedMs := by
  unfold refreshedElapsedMs
  split
  · exact coordinator.elapsedMs_le_currentElapsedMs
  · exact le_refl _

/-- Nothing but the elapsed time of a view changes. -/
def Elapses (before after : LiveCaptureCoordinator) : Prop :=
  ∃ elapsedMs, before.view.elapsedMs ≤ elapsedMs ∧ after.view = { before.view with elapsedMs }

variable {before between coordinator : LiveCaptureCoordinator} {action : CaptureAction}
  {outcome : Outcome}

theorem Elapses.of_view_eq {after : LiveCaptureCoordinator} (same : after.view = before.view) :
    Elapses before after :=
  ⟨before.view.elapsedMs, le_refl _, same⟩

theorem Elapses.trans {after : LiveCaptureCoordinator} (first : Elapses before between)
    (second : Elapses between after) : Elapses before after := by
  obtain ⟨elapsedMs, later, viewEq⟩ := first
  obtain ⟨elapsedMs', later', viewEq'⟩ := second
  rw [viewEq] at later' viewEq'
  exact ⟨elapsedMs', later.trans later', viewEq'⟩

theorem Elapses.after {after : LiveCaptureCoordinator} (elapses : Elapses between after)
    (same : between.view = before.view) : Elapses before after :=
  Elapses.trans (.of_view_eq same) elapses

section

variable (coordinator)

theorem elapses_refreshElapsed : Elapses coordinator coordinator.refreshElapsed := by
  rw [refreshElapsed_eq]
  exact ⟨_, coordinator.elapsedMs_le_refreshedElapsedMs, rfl⟩

theorem elapses_deliverSnapshot : Elapses coordinator coordinator.deliverSnapshot.1 :=
  elapses_refreshElapsed coordinator

theorem elapses_broadcast (immediate : Bool) :
    Elapses coordinator (coordinator.broadcast immediate).1 := by
  unfold broadcast
  split
  · exact .of_view_eq rfl
  · split
    · exact (elapses_deliverSnapshot _).after rfl
    · exact .of_view_eq rfl

@[simp]
theorem marks_broadcast (immediate : Bool) : marks (coordinator.broadcast immediate).2 = [] := by
  unfold broadcast
  split
  · rfl
  · split <;> rfl

theorem elapses_returnSnapshot : Elapses coordinator coordinator.returnSnapshot.1 :=
  elapses_refreshElapsed coordinator

@[simp]
theorem marks_returnSnapshot : marks coordinator.returnSnapshot.2 = [] :=
  rfl

theorem broadcastAndReturn_fst :
    coordinator.broadcastAndReturn.1 = (coordinator.broadcast true).1.returnSnapshot.1 :=
  rfl

theorem elapses_broadcastAndReturn : Elapses coordinator coordinator.broadcastAndReturn.1 :=
  Elapses.trans (elapses_broadcast coordinator true) (elapses_returnSnapshot _)

@[simp]
theorem marks_broadcastAndReturn : marks coordinator.broadcastAndReturn.2 = [] := by
  simp [broadcastAndReturn]

end

theorem Elapses.effect {after : LiveCaptureCoordinator} {observed : List CaptureObservation}
    (elapses : Elapses between after) (effect : ∀ elapsedMs, between.view.elapsedMs ≤ elapsedMs →
      Effect coordinator action { between.view with elapsedMs } observed) :
    Effect coordinator action after.view observed := by
  obtain ⟨elapsedMs, later, viewEq⟩ := elapses
  rw [viewEq]
  exact effect elapsedMs later

/-- An outcome without marks that lets time pass. -/
def Settles (coordinator : LiveCaptureCoordinator) (outcome : Outcome) : Prop :=
  Elapses coordinator outcome.1 ∧ marks outcome.2 = []

theorem Settles.effect (settles : Settles coordinator outcome) :
    Effect coordinator action outcome.1.view (marks outcome.2) := by
  obtain ⟨⟨elapsedMs, later, viewEq⟩, noMarks⟩ := settles
  rw [viewEq, noMarks]
  exact .settled later

theorem settles_throw (coordinator : LiveCaptureCoordinator) (message : String) :
    Settles coordinator (coordinator.throw message) :=
  ⟨.of_view_eq rfl, rfl⟩

theorem settles_returnSnapshot (coordinator : LiveCaptureCoordinator) :
    Settles coordinator coordinator.returnSnapshot :=
  ⟨elapses_returnSnapshot coordinator, marks_returnSnapshot coordinator⟩

theorem settles_broadcast (immediate : Bool) (same : coordinator.view = before.view) :
    Settles before (coordinator.broadcast immediate) :=
  ⟨(elapses_broadcast coordinator immediate).after same, marks_broadcast coordinator immediate⟩

theorem settles_broadcastAndReturn (same : coordinator.view = before.view) :
    Settles before coordinator.broadcastAndReturn :=
  ⟨(elapses_broadcastAndReturn coordinator).after same, marks_broadcastAndReturn coordinator⟩

/-- A snapshot returned while the capture runs shows the time at which it was
asked for. -/
theorem currentElapsedMs_le_broadcastAndReturn (coordinator : LiveCaptureCoordinator)
    (running : coordinator.snapshot.lifecycle ∈
      [LiveCaptureLifecycle.starting, .recording, .paused]) :
    coordinator.currentElapsedMs ≤ coordinator.broadcastAndReturn.1.snapshot.elapsedMs := by
  have returned : ∀ between : LiveCaptureCoordinator,
      between.snapshot.lifecycle = coordinator.snapshot.lifecycle →
      coordinator.currentElapsedMs ≤ between.currentElapsedMs →
      coordinator.currentElapsedMs ≤ between.returnSnapshot.1.snapshot.elapsedMs := by
    intro between sameLifecycle later
    simp only [returnSnapshot, refreshElapsed_eq, refreshedElapsedMs, sameLifecycle, running]
    exact later
  have refreshed := elapsedMs_le_currentElapsedMs coordinator.refreshElapsed
  simp only [refreshElapsed_eq, refreshedElapsedMs, running] at refreshed
  rw [broadcastAndReturn_fst]
  unfold broadcast
  split
  · exact returned _ rfl (le_refl _)
  · split
    · apply returned
      · simp [deliverSnapshot, refreshElapsed_eq]
      · simp only [deliverSnapshot, refreshElapsed_eq, refreshedElapsedMs, running]
        exact refreshed
    · exact returned _ rfl (le_refl _)

/-! ## Calls -/

theorem view_claimMeeting {claimed : LiveCaptureCoordinator} {meetingId : String} {sender : Nat}
    (claims : coordinator.claimMeeting meetingId sender = some claimed) :
    claimed.view = coordinator.view := by
  unfold claimMeeting at claims
  split at claims
  · cases claims
  · split at claims
    · cases claims
    · cases claims
      split <;> rfl

theorem start_effect (coordinator : LiveCaptureCoordinator) (config : LiveCaptureStartConfig)
    (owner : Nat) : Effect coordinator (.start config owner) (coordinator.start config owner).1.view
      (marks (coordinator.start config owner).2) := by
  unfold start
  split
  · split
    · exact (settles_returnSnapshot coordinator).effect
    · exact (settles_throw coordinator _).effect
  · cases claims : coordinator.claimMeeting config.meetingId owner with
    | none => exact (settles_throw coordinator _).effect
    | some claimed =>
      obtain ⟨elapsedMs, later, viewEq⟩ :=
        elapses_broadcast (claimed.beginCapture config owner) true
      refine (Effect.started later).of_eq ?_
        (by simp only [marks_cons, marks_broadcast]; rfl)
      rw [← view_claimMeeting claims]
      exact viewEq

theorem appendAudio_effect (coordinator : LiveCaptureCoordinator) (frame : LiveAudioFrame)
    (sender : Nat) (createId : String) : Effect coordinator (.appendAudio frame sender createId)
      (coordinator.appendAudio frame sender createId).1.view
      (marks (coordinator.appendAudio frame sender createId).2) := by
  have handed (accepted : Accepts coordinator frame sender) :
      Effect coordinator (.appendAudio frame sender createId)
        (coordinator.handFrame frame createId).1.view
        (marks (coordinator.handFrame frame createId).2) := by
    refine (Effect.handed accepted).of_eq ?_ rfl
    unfold handFrame
    dsimp only
    split <;> rfl
  unfold appendAudio
  by_cases owned : coordinator.snapshot.ownerWebContentsId ≠ some sender
  · rw [if_pos owned]
    exact (settles_throw coordinator _).effect
  rw [if_neg owned]
  by_cases paused : coordinator.snapshot.lifecycle = .paused
  · rw [if_pos paused]
    exact Settles.effect ⟨.of_view_eq rfl, rfl⟩
  rw [if_neg paused]
  cases error : coordinator.appendError frame with
  | some message => exact (settles_throw coordinator _).effect
  | none =>
    cases recorded : coordinator.sequences.get? frame.captureSessionId with
    | none => exact handed ⟨not_not.mp owned, paused, error, by simp [recorded]⟩
    | some prior =>
      dsimp only
      split
      · exact Settles.effect ⟨.of_view_eq rfl, rfl⟩
      · split
        · exact (settles_throw coordinator _).effect
        · rename_i newer ordered
          refine handed ⟨not_not.mp owned, paused, error, ?_⟩
          simp only [recorded, Option.mem_some_iff, forall_eq']
          exact ⟨not_le.mp newer, not_lt.mp ordered⟩

theorem pause_effect (coordinator : LiveCaptureCoordinator) (sender : Nat) (createId : String) :
    Effect coordinator (.pause sender createId) (coordinator.pause sender createId).1.view
      (marks (coordinator.pause sender createId).2) := by
  unfold pause
  split
  · exact (settles_throw coordinator _).effect
  · split
    · exact (settles_returnSnapshot coordinator).effect
    · split
      · exact (settles_throw coordinator _).effect
      · rename_i recording
        rw [marks_broadcastAndReturn]
        obtain ⟨elapsedMs, -, viewEq⟩ :=
          elapses_broadcastAndReturn (coordinator.beginPause createId)
        have shown := currentElapsedMs_le_broadcastAndReturn (coordinator.beginPause createId)
          (by simp [beginPause, LiveCaptureSnapshot.setSourcesMuted, LiveCaptureSnapshot.pushEvent])
        have elapsedEq := congrArg CaptureView.elapsedMs viewEq
        rw [viewEq]
        exact .paused (not_not.mp recording) (shown.trans elapsedEq.le)

theorem resume_effect (coordinator : LiveCaptureCoordinator) (sender : Nat) (createId : String) :
    Effect coordinator (.resume sender createId) (coordinator.resume sender createId).1.view
      (marks (coordinator.resume sender createId).2) := by
  unfold resume
  split
  · exact (settles_throw coordinator _).effect
  · split
    · exact (settles_returnSnapshot coordinator).effect
    · split
      · exact (settles_throw coordinator _).effect
      · rename_i paused
        rw [marks_broadcastAndReturn]
        exact (elapses_broadcastAndReturn _).effect fun _ later =>
          .resumed (not_not.mp paused) coordinator.elapsedMs_le_currentElapsedMs later

theorem finalize_effect (finalizes : Finalizes coordinator action) (meetingId : String)
    (lifecycle : FinalLifecycle) (destroyedOwner : Option Nat) : Effect coordinator action
      ({ coordinator with stopPromise := true }.finalize meetingId lifecycle destroyedOwner).1.view
      (marks ({ coordinator with stopPromise := true }.finalize meetingId lifecycle
        destroyedOwner).2) := by
  simp only [finalize, marks_cons, marks_append, marks_broadcast]
  exact (elapses_broadcast (beginStopping { coordinator with stopPromise := true }) true).effect
    fun _ later => .stopping finalizes later

theorem stop_effect (coordinator : LiveCaptureCoordinator) (sender : Nat) :
    Effect coordinator (.stop sender) (coordinator.stop sender).1.view
      (marks (coordinator.stop sender).2) := by
  unfold stop
  by_cases owned : coordinator.snapshot.ownerWebContentsId ≠ some sender
  · rw [if_pos owned]
    exact (settles_throw coordinator _).effect
  rw [if_neg owned]
  by_cases stopped : coordinator.stopPromise = true
  · rw [if_pos stopped]
    exact Settles.effect ⟨.of_view_eq rfl, rfl⟩
  rw [if_neg stopped]
  split
  · exact (settles_returnSnapshot coordinator).effect
  split
  · exact (settles_returnSnapshot coordinator).effect
  by_cases active : coordinator.isActive = true
  · rw [if_neg (by simp [active])]
    cases meeting : coordinator.finalizableMeeting with
    | none => exact Settles.effect ⟨.of_view_eq rfl, rfl⟩
    | some meetingId =>
      have finalizes : Finalizes coordinator (.stop sender) :=
        ⟨not_not.mp owned, active, by simpa using stopped, by simp [meeting]⟩
      exact finalize_effect finalizes _ _ _
  · rw [if_pos (by simp [active])]
    exact (settles_throw coordinator _).effect

theorem settles_releaseOwner (same : coordinator.view = before.view) (owner : Nat) :
    Settles before (coordinator.releaseOwner owner) := by
  unfold releaseOwner
  dsimp only
  split
  · exact settles_broadcast true same
  · exact ⟨.of_view_eq same, rfl⟩

theorem ownerDestroyed_effect (coordinator : LiveCaptureCoordinator) (owner : Nat) :
    Effect coordinator (.ownerDestroyed owner) (coordinator.ownerDestroyed owner).1.view
      (marks (coordinator.ownerDestroyed owner).2) := by
  unfold ownerDestroyed
  by_cases finalizes : coordinator.snapshot.ownerWebContentsId = some owner &&
      coordinator.isActive && !coordinator.stopPromise
  · rw [if_pos finalizes]
    simp only [Bool.and_eq_true, decide_eq_true_eq, Bool.not_eq_true'] at finalizes
    obtain ⟨⟨owned, active⟩, unstopped⟩ := finalizes
    cases meeting : coordinator.finalizableMeeting with
    | none => exact Settles.effect ⟨.of_view_eq rfl, rfl⟩
    | some meetingId =>
      have finalizes : Finalizes coordinator (.ownerDestroyed owner) :=
        ⟨owned, active, unstopped, by simp [meeting]⟩
      exact finalize_effect finalizes _ _ _
  · rw [if_neg finalizes]
    exact (settles_releaseOwner rfl owner).effect

theorem resetSnapshot_effect (same : coordinator.view = before.view)
    (clears : (∃ meetingId, action = .clearFinalizedMeeting meetingId) ∨
      ∃ meetingId, action = .acknowledgeAudioAssetsPersisted meetingId)
    (recoveredMeetings : List LiveRecoveredMeeting) :
    Effect before action (coordinator.resetSnapshot recoveredMeetings).1.view
      (marks (coordinator.resetSnapshot recoveredMeetings).2) := by
  simp only [resetSnapshot, marks_cons, marks_broadcast]
  exact (elapses_broadcast (coordinator.forgetCapture recoveredMeetings) true).effect
    fun _ later => (Effect.cleared clears later).of_eq (by rw [← same]; rfl) rfl

section

variable (coordinator)

theorem clearFinalizedMeeting_effect (meetingId : String) :
    Effect coordinator (.clearFinalizedMeeting meetingId)
      (coordinator.clearFinalizedMeeting meetingId).1.view
      (marks (coordinator.clearFinalizedMeeting meetingId).2) := by
  unfold clearFinalizedMeeting
  split
  · exact Settles.effect ⟨.of_view_eq rfl, rfl⟩
  · split
    · exact (settles_throw coordinator _).effect
    · refine resetSnapshot_effect ?_ (.inl ⟨meetingId, rfl⟩) _
      rfl

theorem view_releaseMeeting (meetingId : String) :
    (coordinator.releaseMeeting meetingId).view = coordinator.view := by
  unfold releaseMeeting
  split <;> rfl

theorem acknowledgeAudioAssetsPersisted_effect (meetingId : String) :
    Effect coordinator (.acknowledgeAudioAssetsPersisted meetingId)
      (coordinator.acknowledgeAudioAssetsPersisted meetingId).1.view
      (marks (coordinator.acknowledgeAudioAssetsPersisted meetingId).2) := by
  unfold acknowledgeAudioAssetsPersisted
  split
  · exact Settles.effect ⟨.of_view_eq rfl, rfl⟩
  · have same := view_releaseMeeting coordinator meetingId
    split
    · exact resetSnapshot_effect same (.inr ⟨meetingId, rfl⟩) _
    · exact Settles.effect (settles_broadcast true same)

theorem markSystemSleep_effect (createId : String) :
    Effect coordinator (.markSystemSleep createId) (coordinator.markSystemSleep createId).1.view
      (marks (coordinator.markSystemSleep createId).2) := by
  unfold markSystemSleep
  split
  · exact Settles.effect ⟨.of_view_eq rfl, rfl⟩
  · rw [marks_broadcast]
    exact (elapses_broadcast _ true).effect fun _ later => .slept later

theorem markSystemResume_effect (createId : String) :
    Effect coordinator (.markSystemResume createId)
      (coordinator.markSystemResume createId).1.view
      (marks (coordinator.markSystemResume createId).2) := by
  unfold markSystemResume
  split
  · exact Settles.effect ⟨.of_view_eq rfl, rfl⟩
  · rename_i active
    rw [marks_broadcast]
    exact (elapses_broadcast _ true).effect fun _ later => .woken (by simpa using active) later

end

/-! ## Continuations -/

theorem setError_effect (same : coordinator.view = before.view) (error : LiveError) :
    Effect before action (coordinator.setError error).1.view [] := by
  have sameElapsed := congrArg CaptureView.elapsedMs same
  exact (elapses_broadcast _ true).effect fun _ later =>
    (Effect.failed (sameElapsed.symm.le.trans later)).of_eq (by rw [← same]; rfl) rfl

@[simp]
theorem marks_setError (coordinator : LiveCaptureCoordinator) (error : LiveError) :
    marks (coordinator.setError error).2 = [] :=
  marks_broadcast _ true

theorem startRejected_effect (same : coordinator.view = before.view) :
    Effect before action coordinator.startRejected.1.view
      (marks coordinator.startRejected.2) := by
  simp only [startRejected, marks_append, marks_setError]
  exact setError_effect same _

theorem failWrite_effect (same : coordinator.view = before.view) (recoveredAssets : Bool) :
    Effect before action (coordinator.failWrite recoveredAssets).1.view
      (marks (coordinator.failWrite recoveredAssets).2) := by
  simp only [failWrite, marks_append, marks_setError]
  exact setError_effect same _

theorem appendResolved_effect {call : Nat} {frame : LiveAudioFrame}
    {activationEpochMs : Option Number} {droppedFrames : Nat} (awaited : coordinator.awaiting call =
      some (.appendFrame frame activationEpochMs droppedFrames)) (bytesBySource : PerSource Nat) :
    Effect coordinator (.frameWritten call bytesBySource)
      ((coordinator.settle call).appendResolved call frame activationEpochMs droppedFrames
        bytesBySource).1.view
      (marks ((coordinator.settle call).appendResolved call frame activationEpochMs
        droppedFrames bytesBySource).2) := by
  have observedEq : marks ((coordinator.settle call).appendResolved call frame
      activationEpochMs droppedFrames bytesBySource).2 = [.written call frame] := by
    simp [appendResolved, CaptureObservation.isMark]
  rw [observedEq]
  have elapses := elapses_broadcast ((coordinator.settle call).recordWrite frame
    activationEpochMs droppedFrames bytesBySource) false
  cases activationEpochMs with
  | none => exact elapses.effect fun _ later => .written awaited later
  | some activationEpochMs => exact elapses.effect fun _ _ => .activated awaited

theorem appendRejected_effect (coordinator : LiveCaptureCoordinator) (call : Nat)
    (frame : LiveAudioFrame) : Effect coordinator (.writeFailed call)
      ((coordinator.settle call).appendRejected frame).1.view
      (marks ((coordinator.settle call).appendRejected frame).2) := by
  have later := elapsedMs_le_refreshedElapsedMs coordinator
  unfold appendRejected
  rw [refreshElapsed_eq]
  exact (Effect.writeFailed later).of_eq rfl rfl

theorem view_storeAssets (coordinator : LiveCaptureCoordinator) (snapshotObject : Nat)
    (assets : List LiveAudioAsset) :
    (coordinator.storeAssets snapshotObject assets).view = coordinator.view := by
  unfold storeAssets
  split <;> rfl

theorem view_continueOwnerDestroyed (coordinator : LiveCaptureCoordinator)
    (destroyedOwner : Option Nat) :
    (coordinator.continueOwnerDestroyed destroyedOwner).view = coordinator.view := by
  cases destroyedOwner <;> rfl

theorem le_latestEnd (elapsedMs : Number) (assets : List LiveAudioAsset) :
    elapsedMs ≤ latestEnd elapsedMs assets := by
  induction assets generalizing elapsedMs with
  | nil => exact le_refl _
  | cons asset rest ih => exact (le_max_left _ _).trans (ih _)

theorem finalizeResolved_effect (coordinator : LiveCaptureCoordinator) (call : Nat)
    (lifecycle : FinalLifecycle) (destroyedOwner : Option Nat) (snapshotObject : Nat)
    (assets : List LiveAudioAsset) : Effect coordinator action
      ((coordinator.settle call).finalizeResolved lifecycle destroyedOwner snapshotObject
        assets).1.view
      (marks ((coordinator.settle call).finalizeResolved lifecycle destroyedOwner
        snapshotObject assets).2) := by
  have same : ((coordinator.settle call).storeAssets snapshotObject assets).view =
      coordinator.view :=
    view_storeAssets _ _ _
  simp only [finalizeResolved, view_continueOwnerDestroyed, marks_broadcastAndReturn]
  refine (elapses_broadcastAndReturn _).effect fun elapsedMs later => ?_
  have sameElapsed := congrArg CaptureView.elapsedMs same
  have finalized : coordinator.view.elapsedMs ≤ elapsedMs :=
    sameElapsed.symm.le.trans ((le_latestEnd _ _).trans later)
  refine (@Effect.finalized coordinator action lifecycle elapsedMs finalized).of_eq ?_ rfl
  rw [← same]
  rfl

theorem finalizeRejected_effect (same : coordinator.view = before.view)
    (destroyedOwner : Option Nat) (recoveredAssets : Option (List LiveAudioAsset)) :
    Effect before action (coordinator.finalizeRejected destroyedOwner recoveredAssets).1.view
      (marks (coordinator.finalizeRejected destroyedOwner recoveredAssets).2) := by
  simp only [finalizeRejected, view_continueOwnerDestroyed, marks_append, marks_setError]
  refine setError_effect ?_ _
  exact same

/-! ## The effect of a segment -/

theorem step_effect (stepped : step coordinator action = some outcome) :
    Effect coordinator action outcome.1.view (marks outcome.2) := by
  cases action with
  | start config owner =>
    cases stepped
    exact start_effect coordinator config owner
  | appendAudio frame sender createId =>
    cases stepped
    exact appendAudio_effect coordinator frame sender createId
  | pause sender createId =>
    cases stepped
    exact pause_effect coordinator sender createId
  | resume sender createId =>
    cases stepped
    exact resume_effect coordinator sender createId
  | stop sender =>
    cases stepped
    exact stop_effect coordinator sender
  | ownerDestroyed owner =>
    cases stepped
    exact ownerDestroyed_effect coordinator owner
  | assertMeetingOwner meetingId sender =>
    cases stepped
    unfold assertMeetingOwner
    cases claims : coordinator.claimMeeting meetingId sender with
    | none => exact (settles_throw coordinator _).effect
    | some claimed => exact Settles.effect ⟨.of_view_eq (view_claimMeeting claims), rfl⟩
  | clearFinalizedMeeting meetingId =>
    cases stepped
    exact clearFinalizedMeeting_effect coordinator meetingId
  | acknowledgeAudioAssetsPersisted meetingId =>
    cases stepped
    exact acknowledgeAudioAssetsPersisted_effect coordinator meetingId
  | markSystemSleep createId =>
    cases stepped
    exact markSystemSleep_effect coordinator createId
  | markSystemResume createId =>
    cases stepped
    exact markSystemResume_effect coordinator createId
  | getSnapshot =>
    cases stepped
    exact (settles_returnSnapshot coordinator).effect
  | meetingStarted call =>
    simp only [step] at stepped
    split at stepped <;> cases stepped
    exact Settles.effect (settles_broadcastAndReturn rfl)
  | startFailed call =>
    simp only [step] at stepped
    split at stepped <;> cases stepped
    refine startRejected_effect ?_
    rfl
  | frameWritten call bytesBySource =>
    simp only [step] at stepped
    split at stepped
    · rename_i awaited
      cases stepped
      exact appendResolved_effect awaited bytesBySource
    · cases stepped
  | writeFailed call =>
    simp only [step] at stepped
    split at stepped
    · cases stepped
      exact appendRejected_effect coordinator call _
    · cases stepped
  | meetingFinalized call assets =>
    simp only [step] at stepped
    split at stepped <;> cases stepped
    · refine failWrite_effect ?_ true
      exact view_storeAssets _ _ _
    · exact finalizeResolved_effect coordinator call _ _ _ assets
  | finalizationFailed call recoveredAssets =>
    simp only [step] at stepped
    split at stepped <;> cases stepped
    · refine failWrite_effect ?_ false
      rfl
    · refine finalizeRejected_effect ?_ _ recoveredAssets
      rfl
  | ownerDestroyedContinues call =>
    simp only [step] at stepped
    split at stepped <;> cases stepped
    refine Settles.effect (settles_releaseOwner ?_ _)
    rfl
  | intervalTick handle =>
    simp only [step] at stepped
    split at stepped <;> cases stepped
    exact Settles.effect ⟨(elapses_refreshElapsed coordinator).trans (elapses_broadcast _ true),
      marks_broadcast _ true⟩
  | broadcastTimeout =>
    simp only [step] at stepped
    split at stepped <;> cases stepped
    exact Settles.effect ⟨(elapses_deliverSnapshot _).after rfl, rfl⟩
  | clock now =>
    cases stepped
    exact Settles.effect ⟨.of_view_eq rfl, rfl⟩

end LiveCaptureCoordinator

end Obelus.Live.Capture
