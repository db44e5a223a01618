import Obelus.Live.Types

/-!
# The service of local transcription

A worker process transcribes the audio of one session.  Requests to it are numbered
and wait until the worker answers, the time is over or the session is disposed.
-/

namespace Obelus.Live.LocalStt

/-- The bytes of a PCM buffer. -/
abbrev Frame := List UInt8

def sampleRate : Nat := 16000

def maxAudioFrameBytes : Nat := sampleRate * 2 * 2

def localSttModel : String := "base.en"

inductive LocalSttError
  | unavailable
  | outOfOrder
  | invalidFrame
  | invalidResponse
  | notRunning
  | tookTooLong
  | couldNotReceive
  | couldNotDecode
  | unexpectedModel
  | workerError
  | couldNotStart
  | stoppedUnexpectedly
  deriving DecidableEq

/-- The types of messages that answer a request.  A message of another type ends the
wait without settling the request. -/
inductive AnswerType
  | accepted
  | result
  | stopped
  | requestError
  | other
  deriving DecidableEq

/-- A line of the worker, with the turns that could be read from it. -/
inductive WorkerMessage (τ : Type)
  | malformed
  | ready (model : String)
  | error
  | turns (turns : List τ)
  | answer (requestId : Nat) (type : AnswerType) (turns : List τ)
  | unaddressed

/-- What a waiting request gets: the type and the turns of its answer, or an error. -/
abbrev Settled (τ : Type) := Except LocalSttError (AnswerType × List τ)

structure LocalSttAppendResult (τ : Type) where
  accepted : Bool
  droppedFrames : Nat
  turns : List τ

structure WorkerSession (τ : Type) where
  pending : List Nat := []
  nextRequestId : Nat := 0
  nextSequence : Nat := 0
  droppedFrames : Nat := 0
  queuedTurns : List τ := []
  ready : Bool
  stopped : Bool := false
  disposed : Bool := false
  stdinDestroyed : Bool := false

namespace WorkerSession

variable {τ : Type}

/-- The session leaves the table of the service. -/
def dispose (session : WorkerSession τ) : WorkerSession τ :=
  { session with stopped := true, disposed := true }

/-- `failSession`: all waiting requests get the error. -/
def fail (error : LocalSttError) (session : WorkerSession τ) :
    WorkerSession τ × List (Nat × Settled τ) :=
  ({ session.dispose with pending := [] }, session.pending.map fun id => (id, .error error))

/-- A request whose time is over, or that could not be written, fails the session. -/
def failRequest (requestId : Nat) (error : LocalSttError) (session : WorkerSession τ) :
    WorkerSession τ × List (Nat × Settled τ) :=
  if requestId ∈ session.pending then
    let failed := fail error { session with pending := session.pending.erase requestId }
    (failed.1, (requestId, .error error) :: failed.2)
  else (session, [])

def handleWorkerLine (session : WorkerSession τ) :
    WorkerMessage τ → WorkerSession τ × List (Nat × Settled τ)
  | .malformed => session.fail .invalidResponse
  | .ready model =>
    if model = localSttModel then ({ session with ready := true }, [])
    else session.fail .unexpectedModel
  | .error => session.fail .workerError
  | .turns turns => ({ session with queuedTurns := session.queuedTurns ++ turns }, [])
  | .unaddressed => (session, [])
  | .answer requestId type turns =>
    if requestId ∈ session.pending then
      let session := { session with pending := session.pending.erase requestId }
      match type with
      | .requestError => (session, [(requestId, .error .couldNotDecode)])
      | .other => (session, [])
      | type => (session, [(requestId, .ok (type, turns))])
    else (session, [])

/-- The worker process is gone. -/
def exit (session : WorkerSession τ) : WorkerSession τ × List (Nat × Settled τ) :=
  if session.stopped then (session, []) else session.fail .stoppedUnexpectedly

def sendRequest (session : WorkerSession τ) : WorkerSession τ × Except LocalSttError Nat :=
  if !session.ready || session.stdinDestroyed then (session, .error .notRunning)
  else
    ({ session with
        nextRequestId := session.nextRequestId + 1
        pending := session.pending ++ [session.nextRequestId] }, .ok session.nextRequestId)

/-- The check of a frame by the service. -/
def acceptsFrame (pcm : Frame) : Bool :=
  pcm.length ≠ 0 && pcm.length ≤ maxAudioFrameBytes && pcm.length % 2 = 0

/-- `appendAudio` until its request waits.  The sequence number is counted before the
frame is checked. -/
def appendAudio (session : WorkerSession τ) (sequence : Nat) (pcm : Frame) :
    WorkerSession τ × Except LocalSttError Nat :=
  if session.disposed || session.stopped then (session, .error .unavailable)
  else if sequence ≠ session.nextSequence then (session, .error .outOfOrder)
  else
    let session := { session with nextSequence := session.nextSequence + 1 }
    if !acceptsFrame pcm then (session, .error .invalidFrame) else session.sendRequest

/-- The rest of `appendAudio`. -/
def appended (session : WorkerSession τ) :
    Settled τ → WorkerSession τ × Except LocalSttError (LocalSttAppendResult τ)
  | .error error => (session, .error error)
  | .ok (type, turns) =>
    if type ≠ .accepted ∧ type ≠ .result then (session, .error .invalidResponse)
    else
      ({ session with queuedTurns := [] },
        .ok
          { accepted := true
            droppedFrames := session.droppedFrames
            turns := session.queuedTurns ++ turns })

end WorkerSession

/-!
## The streaming adapter of local transcription

The adapter queues the frames of a source and appends them one after the other.  Its
pump runs while frames are queued, and waits for the answer to each append.
-/

def maxQueuedAudioBytes : Nat := sampleRate * 2 * 60

structure LocalSttStartResponse where
  sessionId : String
  providerSessionId : String
  model : String

inductive StreamingTranscriptionEvent (τ : Type)
  | begin (providerSessionId requestedModel configuredModel : String)
  | turn (providerSessionId : String) (turn : τ)
  | error (providerSessionId : Option String) (code message : String) (retryable : Bool)
  deriving DecidableEq

/-- What the adapter asks of its client and tells its owner. -/
inductive AdapterEffect (τ : Type)
  | append (sequence : Nat) (pcm : Frame)
  | event (event : StreamingTranscriptionEvent τ)

/-- Where the pump is.  A pump that is finished is gone only later. -/
inductive Pump
  | idle
  | awaiting (pcm : Frame)
  | backingOff
  | finished
  deriving DecidableEq

structure LocalWhisperStreamingAdapter where
  session : Option LocalSttStartResponse := none
  queue : List Frame := []
  queuedBytes : Nat := 0
  sequence : Nat := 0
  pump : Pump := .idle
  accepting : Bool := true
  closed : Bool := false
  errorReported : Bool := false

namespace LocalWhisperStreamingAdapter

variable {τ : Type}

/-- The next turn of the loop of `pump`. -/
def takeNext (adapter : LocalWhisperStreamingAdapter) :
    LocalWhisperStreamingAdapter × List (AdapterEffect τ) :=
  if adapter.closed then ({ adapter with pump := .finished }, [])
  else
    match adapter.queue with
    | [] => ({ adapter with pump := .finished }, [])
    | pcm :: rest =>
      ({ adapter with queue := rest, pump := .awaiting pcm }, [.append adapter.sequence pcm])

def startPump (adapter : LocalWhisperStreamingAdapter) :
    LocalWhisperStreamingAdapter × List (AdapterEffect τ) :=
  if adapter.session.isNone || adapter.pump ≠ .idle || adapter.closed then (adapter, [])
  else adapter.takeNext

/-- What follows the end of the pump. -/
def pumpSettled (adapter : LocalWhisperStreamingAdapter) :
    LocalWhisperStreamingAdapter × List (AdapterEffect τ) :=
  let adapter := { adapter with pump := .idle }
  if adapter.queue ≠ [] ∧ !adapter.closed then adapter.startPump else (adapter, [])

def reportError (code message : String) (retryable : Bool)
    (adapter : LocalWhisperStreamingAdapter) :
    LocalWhisperStreamingAdapter × List (AdapterEffect τ) :=
  if adapter.errorReported then (adapter, [])
  else
    ({ adapter with errorReported := true },
      [.event (.error (adapter.session.map LocalSttStartResponse.providerSessionId) code message
        retryable)])

def sendAudio (frame : Frame) (adapter : LocalWhisperStreamingAdapter) :
    LocalWhisperStreamingAdapter × List (AdapterEffect τ) :=
  if !adapter.accepting || adapter.closed || frame.length = 0 then (adapter, [])
  else if maxQueuedAudioBytes < adapter.queuedBytes + frame.length then
    adapter.reportError "local_stt_backpressure"
      ("Local transcription fell behind. Local audio recording will continue while Obelus " ++
        "reconnects.") true
  else
    startPump
      { adapter with
        queue := adapter.queue ++ [frame]
        queuedBytes := adapter.queuedBytes + frame.length }

/-- The session has started. -/
def connected (session : LocalSttStartResponse) (adapter : LocalWhisperStreamingAdapter) :
    LocalWhisperStreamingAdapter × List (AdapterEffect τ) :=
  let adapter := { adapter with session := some session }
  if adapter.closed then (adapter, [])
  else
    let started := adapter.startPump
    (started.1,
      .event (.begin session.providerSessionId session.model session.model) :: started.2)

def emitTurns (adapter : LocalWhisperStreamingAdapter) (turns : List τ) :
    List (AdapterEffect τ) :=
  match adapter.session with
  | some session => turns.map fun turn => .event (.turn session.providerSessionId turn)
  | none => []

/-- The loop of `pump` after the answer to the append of a frame. -/
def answered (pcm : Frame) (adapter : LocalWhisperStreamingAdapter) :
    Except LocalSttError (LocalSttAppendResult τ) →
      LocalWhisperStreamingAdapter × List (AdapterEffect τ)
  | .ok result =>
    if !result.accepted then
      ({ adapter with queue := pcm :: adapter.queue, pump := .backingOff },
        adapter.emitTurns result.turns)
    else
      let next := takeNext
        { adapter with
          sequence := adapter.sequence + 1
          queuedBytes := adapter.queuedBytes - pcm.length }
      (next.1, adapter.emitTurns result.turns ++ next.2)
  | .error _ =>
    let reported := reportError "local_stt_transport_error"
      "Local transcription disconnected. Local audio recording will continue." true
      { adapter with queuedBytes := adapter.queuedBytes - pcm.length }
    ({ reported.1 with pump := .finished }, reported.2)

end LocalWhisperStreamingAdapter

end Obelus.Live.LocalStt
