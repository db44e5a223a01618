import Mathlib.Data.Nat.Cast.Order.Ring
import Obelus.Live.Capture.Lifecycle

/-!
# Timeline intervals

The timeline mixes three times: the elapsed time of the wall clock starts and
ends pauses and sleeps, the meeting time of frames bounds capture gaps, and the
end of the last captured frame closes a pause when the capture is finalized.
They may run ahead of one another.  An interval ends before it starts exactly
where one of them closes what another one opened too late: a gap before a frame
that overlaps its predecessor, a pause that is finalized before the capture
caught up with it, and a sleep that outlasts the elapsed time.
-/

namespace Obelus.Live.Capture

open List
open Obelus.Transition
open LiveCaptureCoordinator (droppedFrames gapEvent recoveredSnapshot)

namespace LiveCaptureSnapshot

def openEvents (kind : LiveTimelineEventKind) (events : List LiveTimelineEvent) :
    List LiveTimelineEvent :=
  events.filter (isOpen kind)

/-- The event that `closeLast` closes. -/
def lastOpen (kind : LiveTimelineEventKind) (events : List LiveTimelineEvent) :
    Option LiveTimelineEvent :=
  events.reverse.find? (isOpen kind)

variable {kind other : LiveTimelineEventKind} {event : LiveTimelineEvent} {endMs : Number}
  {events : List LiveTimelineEvent}

theorem isOpen_iff : isOpen kind event = true ↔ event.kind = kind ∧ event.endMs = none := by
  simp [isOpen]

theorem mem_closeFirst (member : event ∈ closeFirst kind endMs events) : event ∈ events ∨
      ∃ found ∈ events.find? (isOpen kind), event = { found with endMs := some endMs } := by
  induction events with
  | nil => cases member
  | cons head rest ih =>
    cases opened : isOpen kind head with
    | true =>
      simp only [closeFirst, opened, if_true, mem_cons] at member
      rcases member with rfl | member
      · exact .inr ⟨head, by simp [opened], rfl⟩
      · exact .inl (mem_cons_of_mem _ member)
    | false =>
      simp only [closeFirst, opened, Bool.false_eq_true, if_false, mem_cons] at member
      rcases member with rfl | member
      · exact .inl mem_cons_self
      · simpa [opened, or_assoc] using Or.inr (ih member)

theorem mem_closeLast (member : event ∈ closeLast kind endMs events) : event ∈ events ∨
      ∃ found ∈ lastOpen kind events, event = { found with endMs := some endMs } := by
  have closed := mem_closeFirst (mem_reverse.mp member)
  rwa [mem_reverse] at closed

theorem filter_closeFirst_self (events : List LiveTimelineEvent) :
    (closeFirst kind endMs events).filter (isOpen kind) =
      (events.filter (isOpen kind)).tail := by
  induction events with
  | nil => rfl
  | cons head rest ih =>
    cases opened : isOpen kind head with
    | true =>
      have closed : isOpen kind { head with endMs := some endMs } = false := by
        simp [isOpen]
      simp [closeFirst, opened, closed]
    | false => simp [closeFirst, opened, ih]

theorem filter_closeFirst_other (different : other ≠ kind) (events : List LiveTimelineEvent) :
    (closeFirst kind endMs events).filter (isOpen other) = events.filter (isOpen other) := by
  induction events with
  | nil => rfl
  | cons head rest ih =>
    cases opened : isOpen kind head with
    | true =>
      have kindEq := (isOpen_iff.mp opened).1
      have closed : isOpen other { head with endMs := some endMs } = false := by
        simp [isOpen]
      have absent : isOpen other head = false := by
        simp [isOpen, kindEq, different.symm]
      simp [closeFirst, opened, closed, absent]
    | false => simp [closeFirst, opened, filter_cons, ih]

/-- Closing the last open event of a kind leaves the others of that kind open. -/
theorem openEvents_closeLast_self (kind : LiveTimelineEventKind) (endMs : Number)
    (events : List LiveTimelineEvent) :
    openEvents kind (closeLast kind endMs events) = (openEvents kind events).dropLast := by
  rw [openEvents, closeLast, filter_reverse, filter_closeFirst_self, filter_reverse,
    tail_reverse, reverse_reverse, openEvents]

theorem openEvents_closeLast_other (different : other ≠ kind) (endMs : Number)
    (events : List LiveTimelineEvent) :
    openEvents other (closeLast kind endMs events) = openEvents other events := by
  rw [openEvents, closeLast, filter_reverse, filter_closeFirst_other different,
    filter_reverse, reverse_reverse, openEvents]

theorem openEvents_append_closed (events : List LiveTimelineEvent)
    (closed : isOpen kind event = false) :
    openEvents kind (events ++ [event]) = openEvents kind events := by
  simp [openEvents, closed]

theorem mem_openEvents_of_lastOpen (found : event ∈ lastOpen kind events) :
    event ∈ openEvents kind events :=
  mem_filter.mpr ⟨mem_reverse.mp (mem_of_find?_eq_some found), find?_some found⟩

end LiveCaptureSnapshot

open LiveCaptureSnapshot

/-- No event ends before it starts. -/
def Ordered (events : List LiveTimelineEvent) : Prop :=
  ∀ event ∈ events, ∀ endMs ∈ event.endMs, event.startMs ≤ endMs

/-- The intervals of a timeline are well formed. -/
structure WellFormedTimeline (config : Config LiveCaptureCoordinator CaptureObservation) :
    Prop where
  ordered : Ordered config.state.snapshot.timelineEvents
  single : (openEvents .pause config.state.snapshot.timelineEvents).length ≤ 1
  stopped : stopped config.trace → openEvents .pause config.state.snapshot.timelineEvents = []

/-- Frames have passed the validation of their message. -/
def validFrames : Guard LiveCaptureCoordinator CaptureAction CaptureObservation :=
  fun _ action _ => match action with
    | .appendAudio frame _ _ => 0 ≤ frame.meetingTimeMs ∧ 0 ≤ frame.durationMs
    | _ => True

/-- The clock does not go back. -/
def steadyClock : Guard LiveCaptureCoordinator CaptureAction CaptureObservation :=
  fun config action next => validFrames config action next ∧
    match action with
    | .clock now => config.state.now ≤ now
    | _ => True

/-- An accepted frame after lost ones starts no earlier than its predecessor
ended. -/
def GapsFollow (coordinator : LiveCaptureCoordinator) : CaptureAction → Prop
  | .appendAudio frame sender _ =>
    Accepts coordinator frame sender →
      ∀ prior ∈ coordinator.sequences.get? frame.captureSessionId,
        droppedFrames (some prior) frame > 0 →
          prior.lastMeetingTimeMs + prior.lastDurationMs ≤ frame.meetingTimeMs
  | _ => True

/-- A capture that is finalized in a pause was captured up to its start. -/
def StopsAfterPause (coordinator : LiveCaptureCoordinator) (action : CaptureAction) : Prop :=
  Finalizes coordinator action →
    ∀ pause ∈ lastOpen .pause coordinator.snapshot.timelineEvents,
      pause.startMs ≤ coordinator.capturedElapsedMs

/-- The system resumes no earlier than it went to sleep. -/
def WakesAfterSleep (coordinator : LiveCaptureCoordinator) : CaptureAction → Prop
  | .markSystemResume _ =>
    coordinator.isActive →
      ∀ sleep ∈ lastOpen .sleep coordinator.snapshot.timelineEvents,
        sleep.startMs ≤ coordinator.currentElapsedMs
  | _ => True

/-- The times that bound an interval are in order, and an activating write
resolves only in a capture that was not stopped and is not in a pause. -/
def timesInOrder : Guard LiveCaptureCoordinator CaptureAction CaptureObservation :=
  fun config action next => validFrames config action next ∧
    GapsFollow config.state action ∧ StopsAfterPause config.state action ∧
    WakesAfterSleep config.state action ∧
    (activates config.state action → stopped config.trace = false ∧
      openEvents .pause config.state.snapshot.timelineEvents = [])

/-- What holds of a timeline beside its well-formedness: a pause starts within
the elapsed time, and is open neither while recording nor after a stop. -/
structure Timely (view : CaptureView) (stopped : Bool) : Prop where
  ordered : Ordered view.timelineEvents
  single : (openEvents .pause view.timelineEvents).length ≤ 1
  elapsed : ∀ pause ∈ openEvents .pause view.timelineEvents, pause.startMs ≤ view.elapsedMs
  recording : view.lifecycle = .recording → openEvents .pause view.timelineEvents = []
  stopped : stopped → openEvents .pause view.timelineEvents = [] ∧
    view.lifecycle ≠ .recording ∧ view.lifecycle ≠ .paused

variable {events : List LiveTimelineEvent} {event : LiveTimelineEvent}
  {coordinator : LiveCaptureCoordinator} {view : CaptureView}

theorem Ordered.append (ordered : Ordered events)
    (last : ∀ endMs ∈ event.endMs, event.startMs ≤ endMs) : Ordered (events ++ [event]) := by
  intro member memberOf
  rcases mem_append.mp memberOf with before | isLast
  · exact ordered member before
  · rw [mem_singleton.mp isLast]
    exact last

theorem Ordered.closeLast {kind : LiveTimelineEventKind} {endMs : Number} (ordered : Ordered events)
    (later : ∀ found ∈ lastOpen kind events, found.startMs ≤ endMs) :
    Ordered (closeLast kind endMs events) := by
  intro event member
  rcases mem_closeLast member with before | ⟨found, isLast, rfl⟩
  · exact ordered event before
  · simpa using later found isLast

/-- The start of a gap is bounded by the time of the frame that follows it. -/
theorem gapEvent_ordered {frame : LiveAudioFrame} {sender : Nat} {createId : String}
    (accepted : Accepts coordinator frame sender)
    (follows : GapsFollow coordinator (.appendAudio frame sender createId))
    (meetingTime : 0 ≤ frame.meetingTimeMs) (duration : 0 ≤ frame.durationMs)
    (dropped : droppedFrames
      (coordinator.sequences.get? frame.captureSessionId) frame > 0) :
    (gapEvent createId
      (coordinator.sequences.get? frame.captureSessionId) frame).startMs ≤
        frame.meetingTimeMs := by
  have follows := follows accepted
  cases recorded : coordinator.sequences.get? frame.captureSessionId with
  | none =>
    have gapDuration : 0 ≤ (frame.workletDroppedFrames : Number) * frame.durationMs :=
      mul_nonneg (Nat.cast_nonneg _) duration
    exact max_le meetingTime (sub_le_self _ gapDuration)
  | some prior =>
    rw [recorded] at dropped
    exact follows prior recorded dropped

theorem Timely.settled {stopped : Bool} (timely : Timely view stopped) {elapsedMs : Number}
    (later : view.elapsedMs ≤ elapsedMs) : Timely { view with elapsedMs } stopped :=
  { timely with elapsed := fun pause isOpen => (timely.elapsed pause isOpen).trans later }

theorem Timely.append {stopped : Bool} (timely : Timely view stopped)
    (ordered : ∀ endMs ∈ event.endMs, event.startMs ≤ endMs) (closed : isOpen .pause event = false)
    : Timely { view with timelineEvents := view.timelineEvents ++ [event] } stopped := by
  have same := openEvents_append_closed view.timelineEvents closed
  exact
    { ordered := timely.ordered.append ordered
      single := same ▸ timely.single
      elapsed := same ▸ timely.elapsed
      recording := fun recording => same.trans (timely.recording recording)
      stopped := fun isStopped =>
        ⟨same.trans (timely.stopped isStopped).1, (timely.stopped isStopped).2⟩ }

theorem openEvents_closeLast_of_single (endMs : Number)
    (single : (openEvents .pause events).length ≤ 1) :
    openEvents .pause (closeLast .pause endMs events) = [] := by
  rw [openEvents_closeLast_self, ← length_eq_zero_iff, length_dropLast]
  omega

theorem timely_of_noPause {stopped : Bool} (ordered : Ordered view.timelineEvents)
    (noPause : openEvents .pause view.timelineEvents = [])
    (lifecycle : stopped → view.lifecycle ≠ .recording ∧ view.lifecycle ≠ .paused) :
    Timely view stopped where
  ordered
  single := by simp [noPause]
  elapsed := by simp [noPause]
  recording := fun _ => noPause
  stopped := fun isStopped => ⟨noPause, lifecycle isStopped⟩

/-- Every effect keeps a timeline timely, if the times it closes intervals with
are in order. -/
theorem Effect.timely {action : CaptureAction} {observed : List CaptureObservation} {stopped : Bool}
    (effect : Effect coordinator action view observed) (before : Timely coordinator.view stopped)
    (valid : ∀ frame sender createId, action = .appendAudio frame sender createId →
      0 ≤ frame.meetingTimeMs ∧ 0 ≤ frame.durationMs) (gaps : GapsFollow coordinator action)
    (stops : StopsAfterPause coordinator action) (wakes : WakesAfterSleep coordinator action)
    (activation : activates coordinator action →
      stopped = false ∧ openEvents .pause coordinator.view.timelineEvents = []) :
    Timely view (observed.foldl readStopped stopped) := by
  cases effect with
  | settled later => exact before.settled later
  | started _ =>
    exact timely_of_noPause (forall_mem_nil _) rfl (by simp)
  | cleared _ _ =>
    exact timely_of_noPause (forall_mem_nil _) rfl fun _ => ⟨by simp, by simp⟩
  | @handed frame sender createId accepted =>
    obtain ⟨meetingTime, duration⟩ := valid frame sender createId rfl
    dsimp only
    split
    · rename_i dropped
      refine before.append ?_ (by simp [isOpen, gapEvent])
      simpa [gapEvent] using
        gapEvent_ordered accepted gaps meetingTime duration dropped
    · exact before
  | written _ later =>
    exact ⟨before.ordered, before.single, (before.settled later).elapsed, before.recording,
      before.stopped⟩
  | activated awaited =>
    obtain ⟨rfl, noPause⟩ := activation (by simp [activates, awaited])
    exact timely_of_noPause before.ordered noPause fun isStopped =>
      absurd isStopped Bool.false_ne_true
  | @paused sender createId startMs elapsedMs recording later =>
    have noPause := before.recording recording
    have onlyPause : openEvents .pause (coordinator.view.timelineEvents ++
        [⟨createId, .pause, startMs, none, none⟩]) =
        [⟨createId, .pause, startMs, none, none⟩] := by
      simp only [openEvents] at noPause ⊢
      simp [noPause, isOpen]
    exact
      { ordered := before.ordered.append (by simp)
        single := by simp [onlyPause]
        elapsed := by simpa [onlyPause] using later
        recording := by simp
        stopped := fun isStopped => absurd recording (before.stopped isStopped).2.1 }
  | @resumed sender createId endMs elapsedMs paused laterEnd later =>
    have noPause := openEvents_closeLast_of_single endMs before.single
    have closes := before.ordered.closeLast fun pause found =>
      (before.elapsed pause (mem_openEvents_of_lastOpen found)).trans laterEnd
    refine timely_of_noPause (closes.append (by simp)) ?_ fun isStopped =>
      absurd paused (before.stopped isStopped).2.2
    rw [openEvents_append_closed _ (by simp [isOpen])]
    exact noPause
  | stopping finalizes _ =>
    exact timely_of_noPause (before.ordered.closeLast (stops finalizes))
      (openEvents_closeLast_of_single _ before.single) fun _ => ⟨by simp, by simp⟩
  | slept later => exact (before.settled later).append (by simp) (by simp [isOpen])
  | @woken createId elapsedMs active later =>
    have closes := before.ordered.closeLast (wakes active)
    have same := openEvents_closeLast_other (show LiveTimelineEventKind.pause ≠ .sleep by decide)
      coordinator.currentElapsedMs coordinator.view.timelineEvents
    have closed : Timely { coordinator.view with
        timelineEvents := closeLast .sleep coordinator.currentElapsedMs
          coordinator.view.timelineEvents } stopped :=
      { ordered := closes
        single := same ▸ before.single
        elapsed := same ▸ before.elapsed
        recording := fun recording => same.trans (before.recording recording)
        stopped := fun isStopped =>
          ⟨same.trans (before.stopped isStopped).1, (before.stopped isStopped).2⟩ }
    exact (closed.settled later).append (by simp) (by simp [isOpen])
  | writeFailed later =>
    exact timely_of_noPause
      (before.ordered.closeLast fun pause found =>
        (before.elapsed pause (mem_openEvents_of_lastOpen found)).trans later)
      (openEvents_closeLast_of_single _ before.single) fun isStopped => (before.stopped isStopped).2
  | failed later =>
    have settled := before.settled later
    exact
      { settled with
        recording := by simp
        stopped := fun isStopped => ⟨(before.stopped isStopped).1, by simp, by simp⟩ }
  | @finalized _ lifecycle _ later =>
    have settled := before.settled later
    exact
      { settled with
        recording := by cases lifecycle <;> simp [FinalLifecycle.toLifecycle]
        stopped := fun isStopped =>
          ⟨(before.stopped isStopped).1, by cases lifecycle <;> simp [FinalLifecycle.toLifecycle],
            by cases lifecycle <;> simp [FinalLifecycle.toLifecycle]⟩ }

section Runs

variable {host : Host} {recoveredAssets : List LiveAudioAsset} {hasListener : Bool}
  {now : Number} {config : Config LiveCaptureCoordinator CaptureObservation}

theorem recoveredSnapshot_timeline (recovered : List LiveRecoveredMeeting) :
    (recoveredSnapshot recovered).timelineEvents = [] := by
  unfold recoveredSnapshot
  split
  · rfl
  · split <;> rfl

theorem timely_of_reaches
    (reaches : Reaches step timesInOrder
      (LiveCaptureCoordinator.new host recoveredAssets hasListener now) config) :
    Timely config.state.view (stopped config.trace) := by
  refine reaches.invariant (fun config => Timely config.state.view (stopped config.trace)) ?_ ?_
  · have noEvents : (LiveCaptureCoordinator.new host recoveredAssets hasListener
        now).view.timelineEvents = [] :=
      recoveredSnapshot_timeline _
    exact timely_of_noPause (by simp [Ordered, noEvents]) (by simp [noEvents, openEvents]) nofun
  · rintro config next action - before advanced ⟨valid, gaps, stops, wakes, activation⟩
    obtain ⟨emitted, stepped, traceEq⟩ := advance_eq_some_iff.mp advanced
    rw [traceEq, stopped_append]
    refine (LiveCaptureCoordinator.step_effect stepped).timely before ?_ gaps stops wakes activation
    rintro frame sender createId rfl
    exact valid

/-- In every run in which the times that bound an interval are in order and no
activating write resolves in a stopped or paused capture, the timeline is well
formed. -/
theorem wellFormedTimeline_of_timesInOrder (host : Host) (recoveredAssets : List LiveAudioAsset)
    (hasListener : Bool) (now : Number)
    (config : Config LiveCaptureCoordinator CaptureObservation)
    (reaches : Reaches step timesInOrder
      (LiveCaptureCoordinator.new host recoveredAssets hasListener now) config) :
    WellFormedTimeline config := by
  have timely := timely_of_reaches reaches
  exact ⟨timely.ordered, timely.single, fun isStopped => (timely.stopped isStopped).1⟩

end Runs

instance (events : List LiveTimelineEvent) : Decidable (Ordered events) :=
  inferInstanceAs (Decidable (∀ event ∈ events, _))

instance : ∀ config action next, Decidable (validFrames config action next) :=
  fun _ action _ => decidable_of_iff
    (∀ appended ∈ action.appended?,
      0 ≤ appended.1.meetingTimeMs ∧ 0 ≤ appended.1.durationMs) (by
    cases action <;> simp [validFrames, CaptureAction.appended?])

def CaptureAction.clock? : CaptureAction → Option Number
  | .clock now => some now
  | _ => none

def CaptureAction.resumesSystem : CaptureAction → Bool
  | .markSystemResume _ => true
  | _ => false

instance : ∀ config action next, Decidable (steadyClock config action next) :=
  fun config action next => decidable_of_iff
    (validFrames config action next ∧ ∀ now ∈ action.clock?, config.state.now ≤ now) (by
    cases action <;> simp [steadyClock, CaptureAction.clock?])

instance (coordinator : LiveCaptureCoordinator) (action : CaptureAction) :
    Decidable (GapsFollow coordinator action) :=
  decidable_of_iff
    (∀ appended ∈ action.appended?, Accepts coordinator appended.1 appended.2 →
      ∀ prior ∈ coordinator.sequences.get? appended.1.captureSessionId,
        droppedFrames (some prior) appended.1 > 0 →
          prior.lastMeetingTimeMs + prior.lastDurationMs ≤ appended.1.meetingTimeMs) (by
    cases action <;> simp [GapsFollow, CaptureAction.appended?])

instance (coordinator : LiveCaptureCoordinator) (action : CaptureAction) :
    Decidable (StopsAfterPause coordinator action) :=
  inferInstanceAs (Decidable (_ → _))

instance (coordinator : LiveCaptureCoordinator) (action : CaptureAction) :
    Decidable (WakesAfterSleep coordinator action) :=
  decidable_of_iff
    (action.resumesSystem → coordinator.isActive →
      ∀ sleep ∈ lastOpen .sleep coordinator.snapshot.timelineEvents,
        sleep.startMs ≤ coordinator.currentElapsedMs) (by
    cases action <;> simp [WakesAfterSleep, CaptureAction.resumesSystem])

instance : ∀ config action next, Decidable (timesInOrder config action next) :=
  fun _ _ _ => inferInstanceAs (Decidable (_ ∧ _ ∧ _ ∧ _ ∧ _))

theorem wellFormedTimeline_recordedCapture :
    ∃ config, exec step (Config.initial recordedCoordinator) recordedCapture = some config ∧
      WellFormedTimeline config := by
  obtain ⟨config, executed⟩ :
      ∃ config, exec step (Config.initial recordedCoordinator) recordedCapture = some config :=
    Option.isSome_iff_exists.mp (by decide +kernel)
  exact ⟨config, executed, wellFormedTimeline_of_timesInOrder recordedHost [] true 1000 config
    (reaches_of_exec recordedCapture (by decide +kernel) executed)⟩

/-- The owner pauses five seconds after the last frame and stops in the pause. -/
def stoppedInPause : List CaptureAction :=
  [recordedStart, .meetingStarted 0, recordedAppend 0 0, .frameWritten 1 recordedBytes,
    .clock 6000, .pause 1 "pause", .stop 1]

theorem not_wellFormedTimeline_of_stoppedInPause :
    ∃ config, Reaches step steadyClock recordedCoordinator config ∧
      ¬WellFormedTimeline config := by
  obtain ⟨config, reaches, disordered⟩ := exists_reaches_of_exec step steadyClock
    recordedCoordinator (fun config => ¬Ordered config.state.snapshot.timelineEvents)
    stoppedInPause (by decide +kernel) (by decide +kernel)
  exact ⟨config, reaches, fun wellFormed => disordered wellFormed.ordered⟩

end Obelus.Live.Capture
