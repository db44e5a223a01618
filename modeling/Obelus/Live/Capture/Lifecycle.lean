import Obelus.Live.Capture.Effects

/-!
# Stopped captures

Once `stop` or `ownerDestroyed` has put the coordinator in `stopping`, the
capture should stay stopped until the next accepted start.  The write of the
frame that activates the capture breaks this: it resumes after its await with
writes to the lifecycle and the interval timer that ask for nothing that
happened meanwhile.  As long as such a write resolves only in a capture that
was not stopped and has no interval timer yet, a stopped capture stays stopped.
-/

namespace Obelus.Live.Capture

open Obelus.Transition

def readStopped (stopped : Bool) : CaptureObservation → Bool
  | .started _ _ => false
  | .stopping => true
  | _ => stopped

/-- The capture was stopped and no start was accepted since. -/
def stopped (trace : List CaptureObservation) : Bool :=
  trace.foldl readStopped false

theorem stopped_append (trace observed : List CaptureObservation) :
    stopped (trace ++ observed) = (marks observed).foldl readStopped (stopped trace) := by
  have unmarked : ∀ value observation, CaptureObservation.isMark observation = false →
      readStopped value observation = value := by
    intro value observation unmarked
    cases observation <;> first | rfl | cases unmarked
  simp only [stopped, List.foldl_append]
  exact foldl_eq_foldl_marks unmarked _ _

def stoppedLifecycles : List LiveCaptureLifecycle :=
  [.stopping, .complete, .interrupted, .error]

/-- A stopped capture is stopping or has ended, and runs no interval timer. -/
def NotRevived (config : Config LiveCaptureCoordinator CaptureObservation) : Prop :=
  stopped config.trace →
    config.state.snapshot.lifecycle ∈ stoppedLifecycles ∧ config.state.intervals = []

/-- The actions of a capture: the finalized meeting is not cleared. -/
def withoutClearing : Guard LiveCaptureCoordinator CaptureAction CaptureObservation :=
  fun _ action _ => match action with
    | .clearFinalizedMeeting _ | .acknowledgeAudioAssetsPersisted _ => False
    | _ => True

/-- The store resolves the write of a frame handed over while the capture was
starting. -/
def activates (coordinator : LiveCaptureCoordinator) : CaptureAction → Bool
  | .frameWritten call _ => match coordinator.awaiting call with
      | some (.appendFrame _ (some _) _) => true
      | _ => false
  | _ => false

/-- An activating write resolves only in a capture that was not stopped and
has no interval timer yet. -/
def activatesUnstopped : Guard LiveCaptureCoordinator CaptureAction CaptureObservation :=
  fun config action next => withoutClearing config action next ∧
    (activates config.state action → stopped config.trace = false ∧ config.state.intervals = [])

/-- The interval timers that run are the one the coordinator can clear. -/
structure StaysStopped (view : CaptureView) (stopped : Bool) : Prop where
  kept : view.intervals = view.timer.toList
  lifecycle : stopped → view.lifecycle ∈ stoppedLifecycles
  intervals : stopped → view.intervals = []

theorem clearTimers_intervals {view : CaptureView}
    (kept : view.intervals = view.timer.toList) : view.clearTimers.intervals = [] := by
  simp only [CaptureView.clearTimers, kept]
  cases view.timer <;> simp

/-- Every effect keeps a stopped capture stopped, if an activation finds it unstopped
and without a timer. -/
theorem Effect.staysStopped {coordinator : LiveCaptureCoordinator} {action : CaptureAction}
    {view : CaptureView} {observed : List CaptureObservation} {stopped : Bool}
    (effect : Effect coordinator action view observed)
    (before : StaysStopped coordinator.view stopped)
    (uncleared : (∀ meetingId, action ≠ .clearFinalizedMeeting meetingId) ∧
      ∀ meetingId, action ≠ .acknowledgeAudioAssetsPersisted meetingId)
    (unstopped : activates coordinator action → stopped = false ∧ coordinator.view.intervals = []) :
    StaysStopped view (observed.foldl readStopped stopped) := by
  cases effect with
  | settled _ => exact ⟨before.kept, before.lifecycle, before.intervals⟩
  | started _ =>
    exact ⟨clearTimers_intervals before.kept, nofun, nofun⟩
  | cleared clears =>
    rcases clears with ⟨meetingId, rfl⟩ | ⟨meetingId, rfl⟩
    · exact absurd rfl (uncleared.1 meetingId)
    · exact absurd rfl (uncleared.2 meetingId)
  | handed _ => exact ⟨before.kept, before.lifecycle, before.intervals⟩
  | written _ _ => exact ⟨before.kept, before.lifecycle, before.intervals⟩
  | activated awaited =>
    obtain ⟨rfl, noIntervals⟩ := unstopped (by simp [activates, awaited])
    refine ⟨?_, nofun, nofun⟩
    simp [noIntervals]
  | paused recording _ =>
    refine ⟨before.kept, fun isStopped => ?_, before.intervals⟩
    have contra := before.lifecycle isStopped
    simp [recording, stoppedLifecycles] at contra
  | resumed paused _ _ =>
    refine ⟨before.kept, fun isStopped => ?_, before.intervals⟩
    have contra := before.lifecycle isStopped
    simp [paused, stoppedLifecycles] at contra
  | stopping _ _ =>
    have cleared := clearTimers_intervals before.kept
    exact ⟨cleared, fun _ => by simp [stoppedLifecycles], fun _ => cleared⟩
  | slept _ => exact ⟨before.kept, before.lifecycle, before.intervals⟩
  | woken _ _ => exact ⟨before.kept, before.lifecycle, before.intervals⟩
  | writeFailed _ =>
    have cleared := clearTimers_intervals before.kept
    exact ⟨cleared, before.lifecycle, fun _ => cleared⟩
  | failed _ =>
    have cleared := clearTimers_intervals before.kept
    exact ⟨cleared, fun _ => by simp [stoppedLifecycles], fun _ => cleared⟩
  | @finalized _ lifecycle _ _ =>
    refine ⟨before.kept, fun _ => ?_, before.intervals⟩
    cases lifecycle <;> simp [stoppedLifecycles, FinalLifecycle.toLifecycle]

section Runs

variable {host : Host} {recoveredAssets : List LiveAudioAsset} {hasListener : Bool}
  {now : Number} {config : Config LiveCaptureCoordinator CaptureObservation}

theorem staysStopped_of_reaches
    (reaches : Reaches step activatesUnstopped
      (LiveCaptureCoordinator.new host recoveredAssets hasListener now) config) :
    StaysStopped config.state.view (stopped config.trace) := by
  refine reaches.invariant
    (fun config => StaysStopped config.state.view (stopped config.trace)) ?_ ?_
  · exact ⟨rfl, nofun, nofun⟩
  · rintro config next action - before advanced ⟨uncleared, unstopped⟩
    obtain ⟨emitted, stepped, traceEq⟩ := advance_eq_some_iff.mp advanced
    rw [traceEq, stopped_append]
    refine (LiveCaptureCoordinator.step_effect stepped).staysStopped before ⟨?_, ?_⟩ unstopped
    · rintro meetingId rfl
      exact uncleared
    · rintro meetingId rfl
      exact uncleared

/-- Whatever the order of the calls and of the store's answers: if every
activating write resolves in a capture that was not stopped and has no interval
timer yet, a stopped capture does not come back to life. -/
theorem notRevived_of_activatesUnstopped (host : Host) (recoveredAssets : List LiveAudioAsset)
    (hasListener : Bool) (now : Number)
    (config : Config LiveCaptureCoordinator CaptureObservation)
    (reaches : Reaches step activatesUnstopped
      (LiveCaptureCoordinator.new host recoveredAssets hasListener now) config) :
    NotRevived config := by
  intro isStopped
  have stays := staysStopped_of_reaches reaches
  exact ⟨stays.lifecycle isStopped, stays.intervals isStopped⟩

end Runs

def CaptureAction.clears : CaptureAction → Bool
  | .clearFinalizedMeeting _ | .acknowledgeAudioAssetsPersisted _ => true
  | _ => false

instance : ∀ config action next, Decidable (withoutClearing config action next) :=
  fun _ action _ => decidable_of_iff (action.clears = false) (by
    cases action <;> simp [withoutClearing, CaptureAction.clears])

instance : ∀ config action next, Decidable (activatesUnstopped config action next) :=
  fun _ _ _ => inferInstanceAs (Decidable (_ ∧ _))

instance (config : Config LiveCaptureCoordinator CaptureObservation) :
    Decidable (NotRevived config) :=
  inferInstanceAs (Decidable (_ → _))

def recordedCoordinator : LiveCaptureCoordinator :=
  LiveCaptureCoordinator.new recordedHost [] true 1000

def recordedStart : CaptureAction :=
  .start ⟨"meeting-1", .inPerson, .mixedDiarized, false⟩ 1

/-- A frame of a capture that starts at the time zero of its meeting. -/
def recordedFrame (sequence : Nat) (meetingTimeMs : Number) : LiveAudioFrame where
  meetingId := "meeting-1"
  captureSessionId := "capture-1"
  sequence
  meetingTimeMs
  durationMs := 20
  pcm := ⟨some [0, 0], none, some [0, 0]⟩
  meters := ⟨some ⟨0, 0⟩, none, some ⟨0, 0⟩⟩
  workletDroppedFrames := 0

def recordedAppend (sequence : Nat) (meetingTimeMs : Number) : CaptureAction :=
  .appendAudio (recordedFrame sequence meetingTimeMs) 1 "event"

def recordedBytes : PerSource Nat :=
  ⟨2, 0, 2⟩

/-- A capture that is activated, paused, resumed and stopped. -/
def recordedCapture : List CaptureAction :=
  [recordedStart, .meetingStarted 0, recordedAppend 0 0, .frameWritten 1 recordedBytes,
    .clock 1100, .intervalTick 0, .pause 1 "pause", .clock 1200, .resume 1 "resume",
    recordedAppend 1 20, .stop 1, .frameWritten 2 recordedBytes, .meetingFinalized 3 []]

theorem notRevived_recordedCapture :
    ∃ config, exec step (Config.initial recordedCoordinator) recordedCapture = some config ∧
      NotRevived config := by
  obtain ⟨config, executed⟩ :
      ∃ config, exec step (Config.initial recordedCoordinator) recordedCapture = some config :=
    Option.isSome_iff_exists.mp (by decide +kernel)
  exact ⟨config, executed, notRevived_of_activatesUnstopped recordedHost [] true 1000 config
    (reaches_of_exec recordedCapture (by decide +kernel) executed)⟩

/-- The owner stops the meeting while the store still writes the frame that
activates it. -/
def revivedCapture : List CaptureAction :=
  [recordedStart, .meetingStarted 0, recordedAppend 0 0, .stop 1,
    .frameWritten 1 recordedBytes]

theorem not_notRevived_of_lateActivation :
    ∃ config, Reaches step withoutClearing recordedCoordinator config ∧ ¬NotRevived config :=
  exists_reaches_of_exec _ _ _ _ revivedCapture (by decide +kernel) (by decide +kernel)

end Obelus.Live.Capture
