import Mathlib.Data.List.Sort
import Obelus.Data.JsMap
import Obelus.Live.Types
import Obelus.Transition.Reaches

/-!
# The capture coordinator

`LiveCaptureCoordinator` owns the snapshot of a capture and hands its frames to
the audio store.  `start`, `appendAudio` and the finalization behind `stop` and
`ownerDestroyed` are asynchronous: a call that awaits the store is kept in
`calls` with its locals until the store resolves or rejects it, and other calls
run in between.

An action is one synchronous segment: a call up to its first suspension, the
continuation of a suspended call, a timer callback, or a change of the clock.
Interval timers that run are listed beside the handle the coordinator keeps,
since a new interval replaces the handle without stopping the old one.
-/

namespace Obelus.Live.Capture

open Obelus.Data
open Obelus.Transition

inductive LiveCaptureLifecycle
  | idle
  | starting
  | recording
  | paused
  | stopping
  | complete
  | interrupted
  | error
  deriving DecidableEq

/-- The lifecycles a finalization may lead to. -/
inductive FinalLifecycle
  | complete
  | interrupted

def FinalLifecycle.toLifecycle : FinalLifecycle → LiveCaptureLifecycle
  | .complete => .complete
  | .interrupted => .interrupted

inductive LiveCaptureSourceState
  | unavailable
  | requesting
  | ready
  | active
  | muted
  | ended
  | error
  deriving DecidableEq

inductive LiveAudioSourceKind
  | microphone
  | system
  | mixed
  deriving DecidableEq

inductive LiveMeetingMode
  | call
  | inPerson

inductive LiveStreamingStrategy
  | mixedDiarized
  | sourceSeparated

/-- A record over the audio sources. -/
structure PerSource (α : Type) where
  microphone : α
  system : α
  mixed : α

structure LiveAudioMeter where
  rms : Number
  peak : Number

structure LiveAudioFrame where
  meetingId : String
  captureSessionId : String
  sequence : Nat
  meetingTimeMs : Number
  durationMs : Number
  pcm : PerSource (Option (List UInt8))
  meters : PerSource (Option LiveAudioMeter)
  workletDroppedFrames : Nat

inductive LiveAudioAssetStatus
  | finalized
  | interrupted

structure LiveAudioAsset where
  assetId : String
  meetingId : String
  sourceKind : LiveAudioSourceKind
  relativePath : String
  durationMs : Number
  bytes : Nat
  checksumSha256 : String
  timelineStartMs : Number
  timelineEndMs : Number
  status : LiveAudioAssetStatus

inductive LiveTimelineEventKind
  | pause
  | resume
  | sleep
  | wake
  | captureGap
  deriving DecidableEq

structure LiveTimelineEvent where
  id : String
  kind : LiveTimelineEventKind
  startMs : Number
  endMs : Option Number
  droppedFrames : Option Nat

structure LiveCaptureSourceSnapshot where
  state : LiveCaptureSourceState
  meter : LiveAudioMeter
  bytesWritten : Nat
  droppedFrames : Nat

structure LiveRecoveredMeeting where
  meetingId : String
  assets : List LiveAudioAsset

structure LiveCaptureSnapshot where
  lifecycle : LiveCaptureLifecycle
  meetingId : Option String
  ownerWebContentsId : Option Nat
  mode : Option LiveMeetingMode
  strategy : Option LiveStreamingStrategy
  includeSystemAudio : Bool
  startedAtEpochMs : Option Number
  elapsedMs : Number
  pausedAtMs : Option Number
  sources : PerSource LiveCaptureSourceSnapshot
  timelineEvents : List LiveTimelineEvent
  finalizedAssets : List LiveAudioAsset
  recoveredMeetings : List LiveRecoveredMeeting
  lastError : Option LiveError

structure LiveCaptureStartConfig where
  meetingId : String
  mode : LiveMeetingMode
  strategy : LiveStreamingStrategy
  includeSystemAudio : Bool

structure CaptureSessionSequence where
  lastSequence : Nat
  lastMeetingTimeMs : Number
  lastDurationMs : Number
  workletDroppedFrames : Nat

/-- The await at which a call is suspended, with its locals.  The two
finalizations differ in what started them: a failed write, or a stop, which may
be one that `ownerDestroyed` waits for.  Both store the assets in the snapshot
object that was current when they began to wait. -/
inductive CaptureAwait
  | startMeeting
  | appendFrame (frame : LiveAudioFrame) (activationEpochMs : Option Number)
      (droppedFrames : Nat)
  | finalizeFailedWrite (snapshotObject : Nat)
  | finalizeMeeting (lifecycle : FinalLifecycle) (destroyedOwner : Option Nat)
      (snapshotObject : Nat)
  | ownerDestroyed (ownerWebContentsId : Nat)

structure CaptureCall where
  id : Nat
  await : CaptureAwait

/-- The fields of the class, with the clock and the suspended calls.  Only
whether a stop promise is kept matters, not the promise; `snapshotObject`
tells the snapshot object apart from those it replaced. -/
structure LiveCaptureCoordinator where
  snapshot : LiveCaptureSnapshot
  snapshotObject : Nat
  sequences : JsMap String CaptureSessionSequence
  meetingOwners : JsMap String Nat
  stopPromise : Bool
  timer : Option Nat
  intervals : List Nat
  nextTimer : Nat
  broadcastTimer : Bool
  lastBroadcastAt : Number
  hasListener : Bool
  now : Number
  calls : List CaptureCall
  nextCall : Nat

/-- What can be observed: accepted starts, snapshots that were cleared, stops,
frames handed to the store and written by it, other requests to the store,
broadcasts, and the results of calls. -/
inductive CaptureObservation
  | started (meetingId : String) (sources : List LiveAudioSourceKind)
  | cleared
  | stopping
  | finalizing (meetingId : String) (assetStatus : LiveAudioAssetStatus)
  | handed (call : Nat) (frame : LiveAudioFrame)
  | written (call : Nat) (frame : LiveAudioFrame)
  | onSnapshot (snapshot : LiveCaptureSnapshot)
  | returned (snapshot : LiveCaptureSnapshot)
  | appended (accepted duplicate : Bool) (droppedFrames : Nat)
  | threw (message : String)

/-- `Math.round`. -/
def mathRound (number : Number) : Number :=
  ((number + 1 / 2).floor : ℤ)

def emptyMeter : LiveAudioMeter :=
  ⟨0, 0⟩

def emptySource (state : LiveCaptureSourceState) : LiveCaptureSourceSnapshot where
  state
  meter := emptyMeter
  bytesWritten := 0
  droppedFrames := 0

def initialSnapshot : LiveCaptureSnapshot where
  lifecycle := .idle
  meetingId := none
  ownerWebContentsId := none
  mode := none
  strategy := none
  includeSystemAudio := false
  startedAtEpochMs := none
  elapsedMs := 0
  pausedAtMs := none
  sources := ⟨emptySource .unavailable, emptySource .unavailable, emptySource .unavailable⟩
  timelineEvents := []
  finalizedAssets := []
  recoveredMeetings := []
  lastError := none

namespace LiveCaptureSnapshot

def isActive (snapshot : LiveCaptureSnapshot) : Bool :=
  snapshot.lifecycle ∈
    [LiveCaptureLifecycle.starting, .recording, .paused, .stopping]

def muteSource (source : LiveCaptureSourceSnapshot) : LiveCaptureSourceSnapshot :=
  { source with
    state := if source.state ≠ .unavailable ∧ source.state ≠ .ended then .muted else source.state
    meter := emptyMeter }

def setSourcesMuted (snapshot : LiveCaptureSnapshot) : LiveCaptureSnapshot :=
  { snapshot with
    sources := ⟨muteSource snapshot.sources.microphone, muteSource snapshot.sources.system,
      muteSource snapshot.sources.mixed⟩ }

def endSource (source : LiveCaptureSourceSnapshot) : LiveCaptureSourceSnapshot :=
  { source with
    state := if source.state ≠ .unavailable then .ended else source.state
    meter := emptyMeter }

def setSourcesEnded (snapshot : LiveCaptureSnapshot) : LiveCaptureSnapshot :=
  { snapshot with
    sources := ⟨endSource snapshot.sources.microphone, endSource snapshot.sources.system,
      endSource snapshot.sources.mixed⟩ }

/-- The sources of a capture that has become ready to record. -/
def setSourcesReady (snapshot : LiveCaptureSnapshot) : LiveCaptureSnapshot :=
  let sources := snapshot.sources
  { snapshot with
    sources :=
      { microphone := { sources.microphone with state := .ready }
        system :=
          if snapshot.includeSystemAudio then { sources.system with state := .ready }
          else sources.system
        mixed := { sources.mixed with state := .ready } } }

/-- An event of a kind that has no end. -/
def isOpen (kind : LiveTimelineEventKind) (event : LiveTimelineEvent) : Bool :=
  event.kind = kind && event.endMs.isNone

/-- Close the first open event of a list, which is the last one of the
reversed list. -/
def closeFirst (kind : LiveTimelineEventKind) (endMs : Number) :
    List LiveTimelineEvent → List LiveTimelineEvent
  | [] => []
  | event :: rest =>
    if isOpen kind event then { event with endMs := some endMs } :: rest
    else event :: closeFirst kind endMs rest

def closeLast (kind : LiveTimelineEventKind) (endMs : Number)
    (events : List LiveTimelineEvent) : List LiveTimelineEvent :=
  (closeFirst kind endMs events.reverse).reverse

def closeOpenPause (snapshot : LiveCaptureSnapshot) (endMs : Number) : LiveCaptureSnapshot :=
  { snapshot with timelineEvents := closeLast .pause endMs snapshot.timelineEvents }

def pushEvent (snapshot : LiveCaptureSnapshot) (event : LiveTimelineEvent) :
    LiveCaptureSnapshot :=
  { snapshot with timelineEvents := snapshot.timelineEvents ++ [event] }

end LiveCaptureSnapshot

/-- A segment's outcome: the coordinator after it and its observations. -/
abbrev Outcome :=
  LiveCaptureCoordinator × List CaptureObservation

namespace LiveCaptureCoordinator

/-! ## Reading and broadcasting the snapshot -/

def isActive (coordinator : LiveCaptureCoordinator) : Bool :=
  coordinator.snapshot.isActive

def currentElapsedMs (coordinator : LiveCaptureCoordinator) : Number :=
  match coordinator.snapshot.startedAtEpochMs with
  | none => coordinator.snapshot.elapsedMs
  | some startedAtEpochMs =>
    max coordinator.snapshot.elapsedMs (coordinator.now - startedAtEpochMs)

def refreshElapsed (coordinator : LiveCaptureCoordinator) : LiveCaptureCoordinator :=
  if coordinator.snapshot.lifecycle ∈ [LiveCaptureLifecycle.starting, .recording, .paused] then
    { coordinator with
      snapshot := { coordinator.snapshot with elapsedMs := coordinator.currentElapsedMs } }
  else coordinator

/-- `getSnapshot`, as the result of a call. -/
def returnSnapshot (coordinator : LiveCaptureCoordinator) : Outcome :=
  let coordinator := coordinator.refreshElapsed
  (coordinator, [.returned coordinator.snapshot])

def deliverSnapshot (coordinator : LiveCaptureCoordinator) : Outcome :=
  let coordinator := coordinator.refreshElapsed
  (coordinator, [.onSnapshot coordinator.snapshot])

def broadcast (coordinator : LiveCaptureCoordinator) (immediate : Bool) : Outcome :=
  if !coordinator.hasListener then (coordinator, [])
  else if immediate || coordinator.now - coordinator.lastBroadcastAt ≥ 100 then
    { coordinator with
      broadcastTimer := false
      lastBroadcastAt := coordinator.now }.deliverSnapshot
  else ({ coordinator with broadcastTimer := true }, [])

/-- Broadcast at once and return the snapshot. -/
def broadcastAndReturn (coordinator : LiveCaptureCoordinator) : Outcome :=
  let (coordinator, broadcasts) := coordinator.broadcast true
  let (coordinator, results) := coordinator.returnSnapshot
  (coordinator, broadcasts ++ results)

def throw (coordinator : LiveCaptureCoordinator) (message : String) : Outcome :=
  (coordinator, [.threw message])

/-! ## Timers -/

def startTimer (coordinator : LiveCaptureCoordinator) : LiveCaptureCoordinator :=
  { coordinator with
    timer := some coordinator.nextTimer
    intervals := coordinator.intervals ++ [coordinator.nextTimer]
    nextTimer := coordinator.nextTimer + 1 }

def clearTimers (coordinator : LiveCaptureCoordinator) : LiveCaptureCoordinator :=
  { coordinator with
    timer := none
    intervals := coordinator.intervals.filter fun handle => some handle ≠ coordinator.timer
    broadcastTimer := false }

/-- Suspend a call at an await of the store. -/
def suspend (coordinator : LiveCaptureCoordinator) (await : CaptureAwait) :
    LiveCaptureCoordinator :=
  { coordinator with
    calls := coordinator.calls ++ [⟨coordinator.nextCall, await⟩]
    nextCall := coordinator.nextCall + 1 }

def setError (coordinator : LiveCaptureCoordinator) (error : LiveError) : Outcome :=
  let coordinator := coordinator.clearTimers
  { coordinator with
    snapshot :=
      { coordinator.snapshot with
        lifecycle := .error
        lastError := some error }.setSourcesMuted }.broadcast true

/-! ## Ownership -/

def ownedByAnotherWindow : String :=
  "Live meeting is owned by another window"

/-- The check and the claim of `assertMeetingOwner`; `none` is its error. -/
def claimMeeting (coordinator : LiveCaptureCoordinator) (meetingId : String)
    (senderWebContentsId : Nat) : Option LiveCaptureCoordinator :=
  if (coordinator.meetingOwners.get? meetingId).any (· ≠ senderWebContentsId) then none
  else if coordinator.isActive && coordinator.snapshot.meetingId = some meetingId &&
      coordinator.snapshot.ownerWebContentsId ≠ some senderWebContentsId then none
  else
    some
      { coordinator with
        meetingOwners := coordinator.meetingOwners.set meetingId senderWebContentsId
        snapshot :=
          if coordinator.snapshot.meetingId = some meetingId &&
              coordinator.snapshot.ownerWebContentsId = none then
            { coordinator.snapshot with ownerWebContentsId := some senderWebContentsId }
          else coordinator.snapshot }

def assertMeetingOwner (coordinator : LiveCaptureCoordinator) (meetingId : String)
    (senderWebContentsId : Nat) : Outcome :=
  match coordinator.claimMeeting meetingId senderWebContentsId with
  | none => coordinator.throw ownedByAnotherWindow
  | some coordinator => (coordinator, [])

/-! ## Calls -/

/-- The capture of an accepted start, before it is broadcast. -/
def beginCapture (coordinator : LiveCaptureCoordinator) (config : LiveCaptureStartConfig)
    (ownerWebContentsId : Nat) : LiveCaptureCoordinator :=
  { coordinator.clearTimers with
    sequences := JsMap.empty
    stopPromise := false
    snapshot :=
      { initialSnapshot with
        recoveredMeetings := coordinator.snapshot.recoveredMeetings
        lifecycle := .starting
        meetingId := some config.meetingId
        ownerWebContentsId := some ownerWebContentsId
        mode := some config.mode
        strategy := some config.strategy
        includeSystemAudio := config.includeSystemAudio
        sources :=
          { microphone := emptySource .requesting
            system := emptySource (if config.includeSystemAudio then .requesting
              else .unavailable)
            mixed := emptySource .requesting } }
    snapshotObject := coordinator.snapshotObject + 1 }

def start (coordinator : LiveCaptureCoordinator) (config : LiveCaptureStartConfig)
    (ownerWebContentsId : Nat) : Outcome :=
  if coordinator.isActive then
    if coordinator.snapshot.meetingId = some config.meetingId &&
        coordinator.snapshot.ownerWebContentsId = some ownerWebContentsId then
      coordinator.returnSnapshot
    else coordinator.throw "Another live meeting is already active"
  else
    match coordinator.claimMeeting config.meetingId ownerWebContentsId with
    | none => coordinator.throw ownedByAnotherWindow
    | some coordinator =>
      let (coordinator, broadcasts) :=
        (coordinator.beginCapture config ownerWebContentsId).broadcast true
      let sources := [.microphone, .mixed] ++ if config.includeSystemAudio then [.system] else []
      (coordinator.suspend .startMeeting, .started config.meetingId sources :: broadcasts)

/-- The guards of `appendAudio` after the test for a paused meeting, as far as
they throw; `none` is acceptance. -/
def appendError (coordinator : LiveCaptureCoordinator) (frame : LiveAudioFrame) :
    Option String :=
  let snapshot := coordinator.snapshot
  if (snapshot.lifecycle ≠ .starting ∧ snapshot.lifecycle ≠ .recording) ∨
      some frame.meetingId ≠ snapshot.meetingId then
    some "Live recording is not accepting audio"
  else if snapshot.lifecycle = .starting ∧ (frame.pcm.microphone.isNone ∨
      frame.pcm.mixed.isNone ∨ frame.meters.microphone.isNone) then
    some "The first live frame must verify microphone and mixed audio"
  else if frame.meetingTimeMs > coordinator.currentElapsedMs + 2000 then
    some "Audio frame timestamp is invalid"
  else if frame.pcm.system.isSome ∧ snapshot.includeSystemAudio = false then
    some "System audio is not enabled for this meeting"
  else none

/-- The frames lost before a frame, by its sequence and by the worklet's count. -/
def droppedFrames (prior : Option CaptureSessionSequence) (frame : LiveAudioFrame) : Nat :=
  match prior with
  | none => frame.workletDroppedFrames
  | some prior =>
    max (frame.sequence - prior.lastSequence - 1)
      (frame.workletDroppedFrames - prior.workletDroppedFrames)

/-- The timeline event for the frames lost before a frame. -/
def gapEvent (id : String) (prior : Option CaptureSessionSequence) (frame : LiveAudioFrame) :
    LiveTimelineEvent :=
  let dropped := droppedFrames prior frame
  { id
    kind := .captureGap
    startMs := match prior with
      | some prior => prior.lastMeetingTimeMs + prior.lastDurationMs
      | none => max 0 (frame.meetingTimeMs - dropped * frame.durationMs)
    endMs := some frame.meetingTimeMs
    droppedFrames := some dropped }

/-- The frame passes the guards and is handed to the store. -/
def handFrame (coordinator : LiveCaptureCoordinator) (frame : LiveAudioFrame)
    (createId : String) : Outcome :=
  let prior := coordinator.sequences.get? frame.captureSessionId
  let dropped := droppedFrames prior frame
  let activationEpochMs :=
    if coordinator.snapshot.lifecycle = .starting then
      some (coordinator.now - mathRound frame.meetingTimeMs)
    else none
  let snapshot :=
    if dropped > 0 then coordinator.snapshot.pushEvent (gapEvent createId prior frame)
    else coordinator.snapshot
  ({ coordinator with snapshot }.suspend (.appendFrame frame activationEpochMs dropped),
    [.handed coordinator.nextCall frame])

def appendAudio (coordinator : LiveCaptureCoordinator) (frame : LiveAudioFrame)
    (senderWebContentsId : Nat) (createId : String) : Outcome :=
  if coordinator.snapshot.ownerWebContentsId ≠ some senderWebContentsId then
    coordinator.throw ownedByAnotherWindow
  else if coordinator.snapshot.lifecycle = .paused then
    (coordinator, [.appended false false 0])
  else
    match coordinator.appendError frame with
    | some message => coordinator.throw message
    | none =>
      match coordinator.sequences.get? frame.captureSessionId with
      | none => coordinator.handFrame frame createId
      | some prior =>
        if frame.sequence ≤ prior.lastSequence then (coordinator, [.appended false true 0])
        else if frame.meetingTimeMs + frame.durationMs < prior.lastMeetingTimeMs then
          coordinator.throw "Audio frame arrived out of timeline order"
        else coordinator.handFrame frame createId

/-- The capture of an accepted pause, before it is broadcast. -/
def beginPause (coordinator : LiveCaptureCoordinator) (createId : String) :
    LiveCaptureCoordinator :=
  let elapsedMs := coordinator.currentElapsedMs
  let snapshot : LiveCaptureSnapshot :=
    { coordinator.snapshot with
      lifecycle := .paused
      pausedAtMs := some elapsedMs }
  { coordinator with
    snapshot := (snapshot.pushEvent
      { id := createId
        kind := .pause
        startMs := elapsedMs
        endMs := none
        droppedFrames := none }).setSourcesMuted }

def pause (coordinator : LiveCaptureCoordinator) (senderWebContentsId : Nat)
    (createId : String) : Outcome :=
  if coordinator.snapshot.ownerWebContentsId ≠ some senderWebContentsId then
    coordinator.throw ownedByAnotherWindow
  else if coordinator.snapshot.lifecycle = .paused then coordinator.returnSnapshot
  else if coordinator.snapshot.lifecycle ≠ .recording then
    coordinator.throw "Live meeting is not recording"
  else (coordinator.beginPause createId).broadcastAndReturn

/-- The capture of an accepted resume, before it is broadcast. -/
def endPause (coordinator : LiveCaptureCoordinator) (createId : String) :
    LiveCaptureCoordinator :=
  let elapsedMs := coordinator.currentElapsedMs
  let snapshot := (coordinator.snapshot.closeOpenPause elapsedMs).pushEvent
    { id := createId
      kind := .resume
      startMs := elapsedMs
      endMs := some elapsedMs
      droppedFrames := none }
  { coordinator with
    snapshot :=
      { snapshot with
        lifecycle := .recording
        pausedAtMs := none }.setSourcesReady }

def resume (coordinator : LiveCaptureCoordinator) (senderWebContentsId : Nat)
    (createId : String) : Outcome :=
  if coordinator.snapshot.ownerWebContentsId ≠ some senderWebContentsId then
    coordinator.throw ownedByAnotherWindow
  else if coordinator.snapshot.lifecycle = .recording then coordinator.returnSnapshot
  else if coordinator.snapshot.lifecycle ≠ .paused then
    coordinator.throw "Live meeting is not paused"
  else (coordinator.endPause createId).broadcastAndReturn

def capturedElapsedMs (coordinator : LiveCaptureCoordinator) : Number :=
  let capturedEndMs := coordinator.sequences.values.foldl
    (fun latest sequence => max latest (sequence.lastMeetingTimeMs + sequence.lastDurationMs)) 0
  if capturedEndMs > 0 then capturedEndMs else coordinator.snapshot.elapsedMs

/-- The status `finalize` is called with beside its lifecycle. -/
def assetStatus : FinalLifecycle → LiveAudioAssetStatus
  | .complete => .finalized
  | .interrupted => .interrupted

/-- The meeting `finalize` may finalize; `none` is its error. -/
def finalizableMeeting (coordinator : LiveCaptureCoordinator) : Option String :=
  coordinator.snapshot.meetingId.filter (· ≠ "")

/-- The capture that `finalize` stops, before it is broadcast. -/
def beginStopping (coordinator : LiveCaptureCoordinator) : LiveCaptureCoordinator :=
  let elapsedMs := coordinator.capturedElapsedMs
  let snapshot := { coordinator.snapshot with
    elapsedMs
    lifecycle := LiveCaptureLifecycle.stopping }.closeOpenPause elapsedMs
  let coordinator := { coordinator with snapshot }.clearTimers
  { coordinator with snapshot := coordinator.snapshot.setSourcesMuted }

/-- `finalize` up to the await of the store. -/
def finalize (coordinator : LiveCaptureCoordinator) (meetingId : String)
    (lifecycle : FinalLifecycle) (destroyedOwner : Option Nat) : Outcome :=
  let (coordinator, broadcasts) := coordinator.beginStopping.broadcast true
  (coordinator.suspend
      (.finalizeMeeting lifecycle destroyedOwner coordinator.snapshotObject),
    .stopping :: (broadcasts ++ [.finalizing meetingId (assetStatus lifecycle)]))

def stop (coordinator : LiveCaptureCoordinator) (senderWebContentsId : Nat) : Outcome :=
  if coordinator.snapshot.ownerWebContentsId ≠ some senderWebContentsId then
    coordinator.throw ownedByAnotherWindow
  else if coordinator.stopPromise then (coordinator, [])
  else if coordinator.snapshot.lifecycle = .complete then coordinator.returnSnapshot
  else if coordinator.snapshot.lifecycle = .error &&
      !coordinator.snapshot.finalizedAssets.isEmpty then coordinator.returnSnapshot
  else if !coordinator.isActive then coordinator.throw "No live meeting is active"
  else
    match coordinator.finalizableMeeting with
    | none => { coordinator with stopPromise := true }.throw "No live meeting is active"
    | some meetingId => { coordinator with stopPromise := true }.finalize meetingId .complete none

/-- The part of `ownerDestroyed` after the finalization it may wait for. -/
def releaseOwner (coordinator : LiveCaptureCoordinator) (ownerWebContentsId : Nat) : Outcome :=
  let owned := coordinator.meetingOwners.entries.filter fun entry => entry.2 = ownerWebContentsId
  let meetingOwners := owned.foldl (fun owners entry => owners.delete entry.1)
    coordinator.meetingOwners
  let coordinator : LiveCaptureCoordinator := { coordinator with meetingOwners }
  if coordinator.snapshot.ownerWebContentsId = some ownerWebContentsId then
    { coordinator with
      snapshot := { coordinator.snapshot with ownerWebContentsId := none } }.broadcast true
  else (coordinator, [])

def ownerDestroyed (coordinator : LiveCaptureCoordinator) (ownerWebContentsId : Nat) : Outcome :=
  if coordinator.snapshot.ownerWebContentsId = some ownerWebContentsId &&
      coordinator.isActive && !coordinator.stopPromise then
    match coordinator.finalizableMeeting with
    | none =>
      ({ coordinator with stopPromise := true }.suspend (.ownerDestroyed ownerWebContentsId),
        [])
    | some meetingId =>
      { coordinator with stopPromise := true }.finalize meetingId .interrupted
        (some ownerWebContentsId)
  else coordinator.releaseOwner ownerWebContentsId

/-- Forget the capture and keep some recovered meetings. -/
def forgetCapture (coordinator : LiveCaptureCoordinator)
    (recoveredMeetings : List LiveRecoveredMeeting) : LiveCaptureCoordinator :=
  { coordinator.clearTimers with
    sequences := JsMap.empty
    stopPromise := false
    snapshot := { initialSnapshot with recoveredMeetings }
    snapshotObject := coordinator.snapshotObject + 1 }

def resetSnapshot (coordinator : LiveCaptureCoordinator)
    (recoveredMeetings : List LiveRecoveredMeeting) : Outcome :=
  let (coordinator, broadcasts) := (coordinator.forgetCapture recoveredMeetings).broadcast true
  (coordinator, .cleared :: broadcasts)

def clearFinalizedMeeting (coordinator : LiveCaptureCoordinator) (meetingId : String) : Outcome :=
  if coordinator.snapshot.meetingId ≠ some meetingId then (coordinator, [])
  else if coordinator.isActive then
    coordinator.throw "Stop the live meeting before deleting its audio"
  else
    { coordinator with
      meetingOwners := coordinator.meetingOwners.delete meetingId }.resetSnapshot
        (coordinator.snapshot.recoveredMeetings.filter
          fun meeting => meeting.meetingId ≠ meetingId)

/-- Drop the owner of a meeting unless it is the one being captured. -/
def releaseMeeting (coordinator : LiveCaptureCoordinator) (meetingId : String) :
    LiveCaptureCoordinator :=
  if coordinator.snapshot.meetingId = some meetingId && coordinator.isActive then coordinator
  else { coordinator with meetingOwners := coordinator.meetingOwners.delete meetingId }

def replaceRecoveredMeetings (coordinator : LiveCaptureCoordinator)
    (recoveredMeetings : List LiveRecoveredMeeting) : LiveCaptureCoordinator :=
  { coordinator with
    snapshot := { coordinator.snapshot with recoveredMeetings }
    snapshotObject := coordinator.snapshotObject + 1 }

def acknowledgeAudioAssetsPersisted (coordinator : LiveCaptureCoordinator) (meetingId : String) :
    Outcome :=
  if !coordinator.snapshot.recoveredMeetings.any (·.meetingId = meetingId) then (coordinator, [])
  else
    let recoveredMeetings := coordinator.snapshot.recoveredMeetings.filter
      fun meeting => meeting.meetingId ≠ meetingId
    let released := coordinator.releaseMeeting meetingId
    if coordinator.snapshot.meetingId = some meetingId && !coordinator.isActive then
      released.resetSnapshot recoveredMeetings
    else (released.replaceRecoveredMeetings recoveredMeetings).broadcast true

def markSystemSleep (coordinator : LiveCaptureCoordinator) (createId : String) : Outcome :=
  if !coordinator.isActive then (coordinator, [])
  else
    { coordinator with
      snapshot := coordinator.snapshot.pushEvent
        { id := createId
          kind := .sleep
          startMs := coordinator.currentElapsedMs
          endMs := none
          droppedFrames := none } }.broadcast true

def markSystemResume (coordinator : LiveCaptureCoordinator) (createId : String) : Outcome :=
  if !coordinator.isActive then (coordinator, [])
  else
    let elapsedMs := coordinator.currentElapsedMs
    let events := LiveCaptureSnapshot.closeLast .sleep elapsedMs coordinator.snapshot.timelineEvents
    { coordinator with
      snapshot := { coordinator.snapshot with timelineEvents := events }.pushEvent
        { id := createId
          kind := .wake
          startMs := elapsedMs
          endMs := some elapsedMs
          droppedFrames := none } }.broadcast true

/-! ## Continuations -/

def startResolved (coordinator : LiveCaptureCoordinator) : Outcome :=
  coordinator.broadcastAndReturn

def startRejected (coordinator : LiveCaptureCoordinator) : Outcome :=
  let (coordinator, broadcasts) := coordinator.setError
    { code := "AUDIO_ASSET_START_FAILED"
      message := "Obelus could not start the local meeting audio files."
      retryable := true }
  (coordinator, broadcasts ++ [.threw "Unable to start live recording"])

/-- The source after a frame that may carry it was written. -/
def updateSource (source : LiveCaptureSourceSnapshot) (pcm : Option (List UInt8))
    (bytes droppedFrames : Nat) (meter : Option LiveAudioMeter) : LiveCaptureSourceSnapshot :=
  match pcm with
  | none => source
  | some _ =>
    { state := .active
      bytesWritten := bytes
      droppedFrames := source.droppedFrames + droppedFrames
      meter := meter.getD source.meter }

/-- What the first written frame of a capture changes. -/
def activate (coordinator : LiveCaptureCoordinator) (frame : LiveAudioFrame)
    (activationEpochMs : Number) : LiveCaptureCoordinator :=
  { coordinator with
    snapshot :=
      { coordinator.snapshot with
        startedAtEpochMs := some activationEpochMs
        elapsedMs := mathRound (frame.meetingTimeMs + frame.durationMs)
        lifecycle := .recording }.setSourcesReady }.startTimer

def recordSequence (coordinator : LiveCaptureCoordinator) (frame : LiveAudioFrame) :
    LiveCaptureCoordinator :=
  { coordinator with
    sequences := coordinator.sequences.set frame.captureSessionId
      { lastSequence := frame.sequence
        lastMeetingTimeMs := frame.meetingTimeMs
        lastDurationMs := frame.durationMs
        workletDroppedFrames := frame.workletDroppedFrames } }

def updateSources (coordinator : LiveCaptureCoordinator) (frame : LiveAudioFrame)
    (droppedFrames : Nat) (bytesBySource : PerSource Nat) : LiveCaptureCoordinator :=
  let sources := coordinator.snapshot.sources
  { coordinator with
    snapshot :=
      { coordinator.snapshot with
        sources :=
          { microphone := updateSource sources.microphone frame.pcm.microphone
              bytesBySource.microphone droppedFrames frame.meters.microphone
            system := updateSource sources.system frame.pcm.system bytesBySource.system
              droppedFrames frame.meters.system
            mixed := updateSource sources.mixed frame.pcm.mixed bytesBySource.mixed
              droppedFrames frame.meters.mixed } } }

/-- The capture after a written frame, before it is broadcast. -/
def recordWrite (coordinator : LiveCaptureCoordinator) (frame : LiveAudioFrame)
    (activationEpochMs : Option Number) (droppedFrames : Nat) (bytesBySource : PerSource Nat) :
    LiveCaptureCoordinator :=
  let coordinator := coordinator.recordSequence frame
  let coordinator := match activationEpochMs with
    | some activationEpochMs => coordinator.activate frame activationEpochMs
    | none => coordinator
  coordinator.updateSources frame droppedFrames bytesBySource

def appendResolved (coordinator : LiveCaptureCoordinator) (call : Nat) (frame : LiveAudioFrame)
    (activationEpochMs : Option Number) (droppedFrames : Nat) (bytesBySource : PerSource Nat) :
    Outcome :=
  let (coordinator, broadcasts) :=
    (coordinator.recordWrite frame activationEpochMs droppedFrames bytesBySource).broadcast false
  (coordinator, .written call frame :: (broadcasts ++ [.appended true false droppedFrames]))

def appendRejected (coordinator : LiveCaptureCoordinator) (frame : LiveAudioFrame) : Outcome :=
  let coordinator := coordinator.refreshElapsed
  let coordinator :=
    { coordinator with
      snapshot := coordinator.snapshot.closeOpenPause coordinator.snapshot.elapsedMs }.clearTimers
  (coordinator.suspend (.finalizeFailedWrite coordinator.snapshotObject),
    [.finalizing frame.meetingId .interrupted])

/-- The assignment of finalized assets to a snapshot object, which may have
been replaced. -/
def storeAssets (coordinator : LiveCaptureCoordinator) (snapshotObject : Nat)
    (assets : List LiveAudioAsset) : LiveCaptureCoordinator :=
  if coordinator.snapshotObject = snapshotObject then
    { coordinator with snapshot := { coordinator.snapshot with finalizedAssets := assets } }
  else coordinator

/-- `appendAudio` after the finalization that follows a failed write. -/
def failWrite (coordinator : LiveCaptureCoordinator) (recoveredAssets : Bool) : Outcome :=
  let (coordinator, broadcasts) := coordinator.setError
    { code := "AUDIO_ASSET_WRITE_FAILED"
      message :=
        if recoveredAssets then "Obelus stopped recording after a local audio write failed."
        else "Obelus stopped recording, and the local audio files need recovery."
      retryable := !recoveredAssets }
  (coordinator, broadcasts ++ [.threw "Unable to write live audio"])

def failedWriteResolved (coordinator : LiveCaptureCoordinator) (snapshotObject : Nat)
    (assets : List LiveAudioAsset) : Outcome :=
  (coordinator.storeAssets snapshotObject assets).failWrite true

def failedWriteRejected (coordinator : LiveCaptureCoordinator)
    (recoveredAssets : Option (List LiveAudioAsset)) : Outcome :=
  { coordinator with
    snapshot :=
      { coordinator.snapshot with finalizedAssets := recoveredAssets.getD [] } }.failWrite false

/-- Let an `ownerDestroyed` that waited for a finalization go on. -/
def continueOwnerDestroyed (coordinator : LiveCaptureCoordinator) (destroyedOwner : Option Nat) :
    LiveCaptureCoordinator :=
  match destroyedOwner with
  | none => coordinator
  | some ownerWebContentsId => coordinator.suspend (.ownerDestroyed ownerWebContentsId)

/-- The latest end among an elapsed time and the ends of assets. -/
def latestEnd (elapsedMs : Number) (assets : List LiveAudioAsset) : Number :=
  assets.foldl (fun latest asset => max latest asset.timelineEndMs) elapsedMs

/-- The capture of a resolved finalization, before it is broadcast. -/
def endCapture (coordinator : LiveCaptureCoordinator) (lifecycle : FinalLifecycle)
    (snapshotObject : Nat) (assets : List LiveAudioAsset) : LiveCaptureCoordinator :=
  let coordinator := coordinator.storeAssets snapshotObject assets
  let snapshot := coordinator.snapshot
  { coordinator with
    snapshot :=
      { snapshot with
        elapsedMs := latestEnd snapshot.elapsedMs snapshot.finalizedAssets
        lifecycle := lifecycle.toLifecycle
        pausedAtMs := none }.setSourcesEnded }

def finalizeResolved (coordinator : LiveCaptureCoordinator) (lifecycle : FinalLifecycle)
    (destroyedOwner : Option Nat) (snapshotObject : Nat) (assets : List LiveAudioAsset) :
    Outcome :=
  let (coordinator, observations) :=
    (coordinator.endCapture lifecycle snapshotObject assets).broadcastAndReturn
  (coordinator.continueOwnerDestroyed destroyedOwner, observations)

/-- The store rejects a finalization, with the assets of an
`AudioFinalizeError` or with another error. -/
def finalizeRejected (coordinator : LiveCaptureCoordinator) (destroyedOwner : Option Nat)
    (recoveredAssets : Option (List LiveAudioAsset)) : Outcome :=
  let finalizedAssets := recoveredAssets.getD coordinator.snapshot.finalizedAssets
  let (coordinator, broadcasts) :=
    { coordinator with snapshot := { coordinator.snapshot with finalizedAssets } }.setError
      { code := "AUDIO_ASSET_FINALIZE_FAILED"
        message :=
          "The meeting stopped, but one or more local audio files need recovery."
        retryable := true }
  (coordinator.continueOwnerDestroyed destroyedOwner,
    broadcasts ++ [.threw "Unable to finalize live audio"])

/-- The callback of an interval timer. -/
def intervalTick (coordinator : LiveCaptureCoordinator) : Outcome :=
  coordinator.refreshElapsed.broadcast true

/-- The callback of the broadcast timer. -/
def broadcastTimeout (coordinator : LiveCaptureCoordinator) : Outcome :=
  { coordinator with
    broadcastTimer := false
    lastBroadcastAt := coordinator.now }.deliverSnapshot

/-! ## Construction -/

def recoveredGroups (recoveredAssets : List LiveAudioAsset) :
    JsMap String (List LiveAudioAsset) :=
  recoveredAssets.foldl (fun groups asset =>
    groups.set asset.meetingId ((groups.get? asset.meetingId).getD [] ++ [asset])) JsMap.empty

def recoveredMeetings (host : Host) (recoveredAssets : List LiveAudioAsset) :
    List LiveRecoveredMeeting :=
  ((recoveredGroups recoveredAssets).entries.insertionSort fun left right =>
    host.localeCompare left.1 right.1 ≤ 0).map fun group => ⟨group.1, group.2⟩

/-- The snapshot of a coordinator that finds recovered meetings, whose first
one it shows. -/
def recoveredSnapshot (recovered : List LiveRecoveredMeeting) : LiveCaptureSnapshot :=
  match recovered with
  | [] => initialSnapshot
  | meeting :: _ =>
    if meeting.meetingId = "" then initialSnapshot
    else
      let holds := fun kind => meeting.assets.any fun asset => asset.sourceKind = kind
      let source := fun kind => emptySource (if holds kind then .ended else .unavailable)
      { initialSnapshot with
        lifecycle := .interrupted
        meetingId := some meeting.meetingId
        includeSystemAudio := holds .system
        elapsedMs := latestEnd 0 meeting.assets
        sources := ⟨source .microphone, source .system, source .mixed⟩
        finalizedAssets := meeting.assets
        recoveredMeetings := recovered
        lastError := some
          { code := "CAPTURE_RECOVERED_AFTER_INTERRUPTION"
            message :=
              "Obelus recovered local audio after the previous meeting was interrupted."
            retryable := false } }

/-- The constructor. -/
def new (host : Host) (recoveredAssets : List LiveAudioAsset) (hasListener : Bool)
    (now : Number) : LiveCaptureCoordinator where
  snapshot := recoveredSnapshot (recoveredMeetings host recoveredAssets)
  snapshotObject := 0
  sequences := JsMap.empty
  meetingOwners := JsMap.empty
  stopPromise := false
  timer := none
  intervals := []
  nextTimer := 0
  broadcastTimer := false
  lastBroadcastAt := 0
  hasListener
  now
  calls := []
  nextCall := 0

/-- The suspended call with an identity. -/
def awaiting (coordinator : LiveCaptureCoordinator) (call : Nat) : Option CaptureAwait :=
  (lookup CaptureCall.id coordinator.calls call).map CaptureCall.await

def settle (coordinator : LiveCaptureCoordinator) (call : Nat) : LiveCaptureCoordinator :=
  { coordinator with calls := coordinator.calls.filter fun pending => pending.id ≠ call }

end LiveCaptureCoordinator

/-! ## Transitions -/

/-- A synchronous segment of the coordinator.  Identifiers that the segment
may draw from `createId` come with its action; a settlement names the suspended
call and what the store answers it. -/
inductive CaptureAction
  | start (config : LiveCaptureStartConfig) (ownerWebContentsId : Nat)
  | appendAudio (frame : LiveAudioFrame) (senderWebContentsId : Nat) (createId : String)
  | pause (senderWebContentsId : Nat) (createId : String)
  | resume (senderWebContentsId : Nat) (createId : String)
  | stop (senderWebContentsId : Nat)
  | ownerDestroyed (ownerWebContentsId : Nat)
  | assertMeetingOwner (meetingId : String) (senderWebContentsId : Nat)
  | clearFinalizedMeeting (meetingId : String)
  | acknowledgeAudioAssetsPersisted (meetingId : String)
  | markSystemSleep (createId : String)
  | markSystemResume (createId : String)
  | getSnapshot
  | meetingStarted (call : Nat)
  | startFailed (call : Nat)
  | frameWritten (call : Nat) (bytesBySource : PerSource Nat)
  | writeFailed (call : Nat)
  | meetingFinalized (call : Nat) (assets : List LiveAudioAsset)
  | finalizationFailed (call : Nat) (recoveredAssets : Option (List LiveAudioAsset))
  | ownerDestroyedContinues (call : Nat)
  | intervalTick (handle : Nat)
  | broadcastTimeout
  | clock (now : Number)

/-- The frame an action hands over, with the window that hands it over. -/
def CaptureAction.appended? : CaptureAction → Option (LiveAudioFrame × Nat)
  | .appendAudio frame sender _ => some (frame, sender)
  | _ => none

open LiveCaptureCoordinator in
/-- One segment; a settlement of a call that does not wait for it and a timer
that does not run are refused. -/
def step : Machine LiveCaptureCoordinator CaptureAction CaptureObservation
  | coordinator, .start config owner => some (coordinator.start config owner)
  | coordinator, .appendAudio frame sender createId =>
    some (coordinator.appendAudio frame sender createId)
  | coordinator, .pause sender createId => some (coordinator.pause sender createId)
  | coordinator, .resume sender createId => some (coordinator.resume sender createId)
  | coordinator, .stop sender => some (coordinator.stop sender)
  | coordinator, .ownerDestroyed owner => some (coordinator.ownerDestroyed owner)
  | coordinator, .assertMeetingOwner meetingId sender =>
    some (coordinator.assertMeetingOwner meetingId sender)
  | coordinator, .clearFinalizedMeeting meetingId =>
    some (coordinator.clearFinalizedMeeting meetingId)
  | coordinator, .acknowledgeAudioAssetsPersisted meetingId =>
    some (coordinator.acknowledgeAudioAssetsPersisted meetingId)
  | coordinator, .markSystemSleep createId => some (coordinator.markSystemSleep createId)
  | coordinator, .markSystemResume createId => some (coordinator.markSystemResume createId)
  | coordinator, .getSnapshot => some coordinator.returnSnapshot
  | coordinator, .meetingStarted call =>
    match coordinator.awaiting call with
    | some .startMeeting => some (coordinator.settle call).startResolved
    | _ => none
  | coordinator, .startFailed call =>
    match coordinator.awaiting call with
    | some .startMeeting => some (coordinator.settle call).startRejected
    | _ => none
  | coordinator, .frameWritten call bytesBySource =>
    match coordinator.awaiting call with
    | some (.appendFrame frame activationEpochMs droppedFrames) =>
      some ((coordinator.settle call).appendResolved call frame activationEpochMs
        droppedFrames bytesBySource)
    | _ => none
  | coordinator, .writeFailed call =>
    match coordinator.awaiting call with
    | some (.appendFrame frame _ _) => some ((coordinator.settle call).appendRejected frame)
    | _ => none
  | coordinator, .meetingFinalized call assets =>
    match coordinator.awaiting call with
    | some (.finalizeFailedWrite snapshotObject) =>
      some ((coordinator.settle call).failedWriteResolved snapshotObject assets)
    | some (.finalizeMeeting lifecycle destroyedOwner snapshotObject) =>
      some ((coordinator.settle call).finalizeResolved lifecycle destroyedOwner
        snapshotObject assets)
    | _ => none
  | coordinator, .finalizationFailed call recoveredAssets =>
    match coordinator.awaiting call with
    | some (.finalizeFailedWrite _) =>
      some ((coordinator.settle call).failedWriteRejected recoveredAssets)
    | some (.finalizeMeeting _ destroyedOwner _) =>
      some ((coordinator.settle call).finalizeRejected destroyedOwner recoveredAssets)
    | _ => none
  | coordinator, .ownerDestroyedContinues call =>
    match coordinator.awaiting call with
    | some (.ownerDestroyed owner) => some ((coordinator.settle call).releaseOwner owner)
    | _ => none
  | coordinator, .intervalTick handle =>
    if handle ∈ coordinator.intervals then some coordinator.intervalTick else none
  | coordinator, .broadcastTimeout =>
    if coordinator.broadcastTimer then some coordinator.broadcastTimeout else none
  | coordinator, .clock now => some ({ coordinator with now }, [])

end Obelus.Live.Capture
