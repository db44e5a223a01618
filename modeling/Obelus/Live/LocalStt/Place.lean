import Obelus.Live.LocalStt.Adapter
import Obelus.Transition.Reaches

/-!
# The place in the audio of a local transcription

The adapter and the service each count the frames.  The adapter counts a frame when
its append succeeds, the service when the append arrives, so that an append that the
service counts and that fails leaves the session behind the adapter for good.
-/

namespace Obelus.Live.LocalStt

open Obelus.Transition List

variable {τ : Type}

/-! ## The system -/

/-- How far the append of the adapter has come. -/
inductive Call (τ : Type)
  | requested (sequence : Nat) (pcm : Frame)
  | pending (requestId : Nat) (pcm : Frame)
  | settled (settled : Settled τ)
  | answered (outcome : Except LocalSttError (LocalSttAppendResult τ))

/-- An adapter, the session of the service that it appends to, and its append. -/
structure LocalTranscription (τ : Type) where
  adapter : LocalWhisperStreamingAdapter
  session : WorkerSession τ
  call : Option (Call τ)

inductive TranscriptionObservation (τ : Type)
  | appended (sequence nextSequence : Nat) (disposed : Bool) (pcm : Frame)
  | accepted (pcm : Frame)
  | refused (error : LocalSttError)
  | event (event : StreamingTranscriptionEvent τ)
  deriving DecidableEq

inductive TranscriptionAction (τ : Type)
  | connected (session : LocalSttStartResponse)
  | sendAudio (frame : Frame)
  | deliver
  | line (message : WorkerMessage τ)
  | timeOut (requestId : Nat)
  | writeFailed (requestId : Nat)
  | stdinDestroyed
  | exit
  | resume
  | receive
  | retry
  | pumpSettled

namespace LocalTranscription

/-- The effects of the adapter: its append is under way, its events are seen. -/
def perform (system : LocalTranscription τ) :
    List (AdapterEffect τ) → LocalTranscription τ × List (TranscriptionObservation τ)
  | [] => (system, [])
  | .append sequence pcm :: rest =>
    let performed := perform { system with call := some (.requested sequence pcm) } rest
    (performed.1,
      .appended sequence system.session.nextSequence system.session.disposed pcm ::
        performed.2)
  | .event event :: rest =>
    let performed := perform system rest
    (performed.1, .event event :: performed.2)

/-- A step of the adapter. -/
def adapt (system : LocalTranscription τ)
    (stepped : LocalWhisperStreamingAdapter × List (AdapterEffect τ)) :
    LocalTranscription τ × List (TranscriptionObservation τ) :=
  perform { system with adapter := stepped.1 } stepped.2

/-- What a settled request shows of its frame. -/
def settledObservation (pcm : Frame) : Settled τ → TranscriptionObservation τ
  | .ok _ => .accepted pcm
  | .error error => .refused error

/-- A step of the session, which may settle the append. -/
def settle (system : LocalTranscription τ)
    (stepped : WorkerSession τ × List (Nat × Settled τ)) :
    LocalTranscription τ × List (TranscriptionObservation τ) :=
  let system := { system with session := stepped.1 }
  match system.call with
  | some (.pending requestId pcm) =>
    match stepped.2.find? fun entry => entry.1 = requestId with
    | some entry =>
      ({ system with call := some (.settled entry.2) }, [settledObservation pcm entry.2])
    | none => (system, [])
  | _ => (system, [])

/-- The append reaches the service, unless the boundary in front of it refuses the
frame. -/
def deliver (admits : Frame → Bool) (system : LocalTranscription τ) (sequence : Nat)
    (pcm : Frame) : LocalTranscription τ × List (TranscriptionObservation τ) :=
  if !admits pcm then
    ({ system with call := some (.answered (.error .invalidFrame)) },
      [.refused .invalidFrame])
  else
    match system.session.appendAudio sequence pcm with
    | (session, .ok requestId) =>
      ({ system with session, call := some (.pending requestId pcm) }, [])
    | (session, .error error) =>
      ({ system with session, call := some (.answered (.error error)) }, [.refused error])

def step (admits : Frame → Bool) :
    Machine (LocalTranscription τ) (TranscriptionAction τ) (TranscriptionObservation τ) :=
  fun system action =>
    match action with
    | .connected session =>
      if system.adapter.session.isSome then none
      else some (system.adapt (system.adapter.connected session))
    | .sendAudio frame => some (system.adapt (system.adapter.sendAudio frame))
    | .deliver =>
      match system.call with
      | some (.requested sequence pcm) => some (system.deliver admits sequence pcm)
      | _ => none
    | .line message => some (system.settle (system.session.handleWorkerLine message))
    | .timeOut requestId =>
      some (system.settle (system.session.failRequest requestId .tookTooLong))
    | .writeFailed requestId =>
      some (system.settle (system.session.failRequest requestId .couldNotReceive))
    | .stdinDestroyed =>
      some ({ system with session := { system.session with stdinDestroyed := true } }, [])
    | .exit => some (system.settle system.session.exit)
    | .resume =>
      match system.call with
      | some (.settled settled) =>
        let resumed := system.session.appended settled
        some ({ system with session := resumed.1, call := some (.answered resumed.2) }, [])
      | _ => none
    | .receive =>
      match system.call, system.adapter.pump with
      | some (.answered outcome), .awaiting pcm =>
        some (adapt { system with call := none } (system.adapter.answered pcm outcome))
      | _, _ => none
    | .retry =>
      if system.adapter.pump = .backingOff then some (system.adapt system.adapter.takeNext)
      else none
    | .pumpSettled =>
      if system.adapter.pump = .finished then some (system.adapt system.adapter.pumpSettled)
      else none

end LocalTranscription

/-- A session whose worker is ready, and an adapter that is not connected to it yet. -/
def startedTranscription : LocalTranscription τ where
  adapter := {}
  session := { ready := true }
  call := none

/-! ## The place -/

def appendedFrames (trace : List (TranscriptionObservation τ)) : List Frame :=
  trace.filterMap fun observation =>
    match observation with
    | .appended _ _ _ pcm => some pcm
    | _ => none

/-- The frames that the worker accepted. -/
def acceptedFrames (trace : List (TranscriptionObservation τ)) : List Frame :=
  trace.filterMap fun observation =>
    match observation with
    | .accepted pcm => some pcm
    | _ => none

/-- Each append of a session that lasts has the sequence number that the service
expects, frames are accepted once and in their order, and no frame is refused for the
fate of another one. -/
structure KeepsPlace (trace : List (TranscriptionObservation τ)) : Prop where
  inSequence : ∀ sequence nextSequence (disposed : Bool) pcm,
    .appended sequence nextSequence disposed pcm ∈ trace →
      disposed ∨ sequence = nextSequence
  acceptedInOrder : (acceptedFrames trace).Sublist (appendedFrames trace)
  ownFate : .refused .outOfOrder ∉ trace

/-- The append that reaches a session that lasts is sound, and the worker takes its
frame. -/
def TakesFrames (admits : Frame → Bool) (system : LocalTranscription τ) :
    TranscriptionAction τ → Prop
  | .deliver =>
    match system.call with
    | some (.requested _ pcm) =>
      system.session.disposed ∨ admits pcm = false ∨
        (WorkerSession.acceptsFrame pcm ∧ system.session.stdinDestroyed = false)
    | _ => True
  | .line (.answer requestId type _) =>
    match system.call with
    | some (.pending waiting _) =>
      requestId = waiting → type ≠ .requestError ∧ type ≠ .stopped
    | _ => True
  | _ => True

def takesFrames (admits : Frame → Bool) :
    Guard (LocalTranscription τ) (TranscriptionAction τ) (TranscriptionObservation τ) :=
  fun config action _ => TakesFrames admits config.state action

instance (admits : Frame → Bool) (system : LocalTranscription τ) :
    ∀ action, Decidable (TakesFrames admits system action) := by
  intro action
  unfold TakesFrames
  split
  · split <;> infer_instance
  · split <;> infer_instance
  · infer_instance

instance (admits : Frame → Bool) :
    ∀ config action next, Decidable (takesFrames (τ := τ) admits config action next) :=
  fun config action _ => inferInstanceAs (Decidable (TakesFrames admits config.state action))

/-- The worker may answer as it likes. -/
def anyAnswers :
    Guard (LocalTranscription τ) (TranscriptionAction τ) (TranscriptionObservation τ) :=
  fun _ _ _ => True

instance : ∀ config action next, Decidable (anyAnswers (τ := τ) config action next) :=
  fun _ _ _ => .isTrue trivial

/-! ## What the adapter does -/

namespace LocalWhisperStreamingAdapter

/-- A step of the adapter keeps its count.  It either tells events only, and goes on
awaiting, or it ends with an append that it had not been awaiting. -/
inductive Adapts (adapter : LocalWhisperStreamingAdapter) :
    LocalWhisperStreamingAdapter × List (AdapterEffect τ) → Prop
  | waits {next : LocalWhisperStreamingAdapter}
      (events : List (StreamingTranscriptionEvent τ)) :
      next.sequence = adapter.sequence →
      (∀ pcm, adapter.pump = .awaiting pcm → next.pump = .awaiting pcm) →
      Adapts adapter (next, events.map .event)
  | appends {next : LocalWhisperStreamingAdapter} {pcm : Frame}
      (events : List (StreamingTranscriptionEvent τ)) :
      next.sequence = adapter.sequence → next.pump = .awaiting pcm →
      (∀ pcm, adapter.pump ≠ .awaiting pcm) →
      Adapts adapter (next, events.map .event ++ [.append next.sequence pcm])

theorem Adapts.unchanged (adapter : LocalWhisperStreamingAdapter) :
    Adapts adapter ((adapter, []) : _ × List (AdapterEffect τ)) :=
  .waits [] rfl fun _ => id

theorem adapts_takeNext (adapter : LocalWhisperStreamingAdapter)
    (notAwaiting : ∀ pcm, adapter.pump ≠ .awaiting pcm) :
    Adapts adapter (adapter.takeNext : _ × List (AdapterEffect τ)) := by
  have finished : Adapts adapter
      (({ adapter with pump := .finished }, []) : _ × List (AdapterEffect τ)) :=
    .waits [] rfl fun pcm awaits => absurd awaits (notAwaiting pcm)
  unfold takeNext
  split
  · exact finished
  · split
    · exact finished
    · exact .appends [] rfl rfl notAwaiting

theorem adapts_startPump (adapter : LocalWhisperStreamingAdapter) :
    Adapts adapter (adapter.startPump : _ × List (AdapterEffect τ)) := by
  unfold startPump
  split
  · exact .unchanged adapter
  · next starts =>
    simp only [Bool.or_eq_true, decide_eq_true_eq, not_or, Decidable.not_not] at starts
    exact adapts_takeNext adapter fun pcm => by simp [starts.1.2]

theorem adapts_reportError (code message : String) (retryable : Bool)
    (adapter : LocalWhisperStreamingAdapter) :
    Adapts adapter (adapter.reportError code message retryable : _ × List (AdapterEffect τ)) := by
  unfold reportError
  split
  · exact .unchanged adapter
  · exact .waits [_] rfl fun _ => id

variable {adapter : LocalWhisperStreamingAdapter}
  {stepped : LocalWhisperStreamingAdapter × List (AdapterEffect τ)}

/-- A step from an adapter with the same count that awaits what this one awaits. -/
theorem Adapts.of_other {other : LocalWhisperStreamingAdapter} (adapts : Adapts other stepped)
    (sequence : other.sequence = adapter.sequence)
    (pump : ∀ pcm, adapter.pump = .awaiting pcm → other.pump = .awaiting pcm) :
    Adapts adapter stepped := by
  cases adapts with
  | waits events same awaits =>
    exact .waits events (same.trans sequence) fun pcm found => awaits pcm (pump pcm found)
  | appends events same awaits notAwaiting =>
    exact .appends events (same.trans sequence) awaits
      fun pcm found => notAwaiting pcm (pump pcm found)

/-- Events in front of a step. -/
theorem Adapts.after_events (adapts : Adapts adapter stepped)
    (before : List (StreamingTranscriptionEvent τ)) :
    Adapts adapter (stepped.1, before.map .event ++ stepped.2) := by
  cases adapts with
  | waits events same awaits =>
    rw [← map_append]
    exact .waits _ same awaits
  | appends events same awaits notAwaiting =>
    rw [← append_assoc, ← map_append]
    exact .appends _ same awaits notAwaiting

theorem adapts_sendAudio (frame : Frame) (adapter : LocalWhisperStreamingAdapter) :
    Adapts adapter (adapter.sendAudio frame : _ × List (AdapterEffect τ)) := by
  unfold sendAudio
  split
  · exact .unchanged adapter
  · split
    · exact adapts_reportError _ _ _ adapter
    · exact (adapts_startPump _).of_other rfl fun _ => id

theorem adapts_connected (session : LocalSttStartResponse)
    (adapter : LocalWhisperStreamingAdapter) :
    Adapts adapter (adapter.connected session : _ × List (AdapterEffect τ)) := by
  unfold connected
  dsimp only
  split
  · exact .waits [] rfl fun _ => id
  · have started : Adapts adapter
        (startPump { adapter with session := some session } : _ × List (AdapterEffect τ)) :=
      (adapts_startPump _).of_other rfl fun _ => id
    exact started.after_events [.begin session.providerSessionId session.model session.model]

theorem adapts_pumpSettled (adapter : LocalWhisperStreamingAdapter)
    (finished : adapter.pump = .finished) :
    Adapts adapter (adapter.pumpSettled : _ × List (AdapterEffect τ)) := by
  have idle : Adapts { adapter with pump := .idle }
      (adapter.pumpSettled : _ × List (AdapterEffect τ)) := by
    unfold pumpSettled
    dsimp only
    split
    · exact adapts_startPump _
    · exact .unchanged _
  exact idle.of_other rfl fun pcm => by simp [finished]

/-- The adapter when the answer to its append has been counted. -/
def counted (accepted : Bool) (adapter : LocalWhisperStreamingAdapter) :
    LocalWhisperStreamingAdapter :=
  { adapter with
    sequence := adapter.sequence + if accepted then 1 else 0
    pump := .finished }

theorem exists_emitTurns_eq (adapter : LocalWhisperStreamingAdapter) (turns : List τ) :
    ∃ events : List (StreamingTranscriptionEvent τ),
      adapter.emitTurns turns = events.map .event := by
  unfold emitTurns
  split
  · next session _ => exact ⟨turns.map (.turn session.providerSessionId), by simp⟩
  · exact ⟨[], rfl⟩

theorem adapts_answered_ok (pcm : Frame) (adapter : LocalWhisperStreamingAdapter)
    {result : LocalSttAppendResult τ} (accepted : result.accepted = true) :
    Adapts (adapter.counted true) (adapter.answered pcm (.ok result)) := by
  obtain ⟨events, emitted⟩ := adapter.exists_emitTurns_eq result.turns
  have next : Adapts (adapter.counted true) (takeNext
      { adapter.counted true with
        queuedBytes := adapter.queuedBytes - pcm.length } : _ × List (AdapterEffect τ)) :=
    (adapts_takeNext _ fun pcm => by simp [counted]).of_other rfl fun _ => id
  have same : takeNext
        { adapter.counted true with queuedBytes := adapter.queuedBytes - pcm.length } =
      (takeNext
        { adapter with
          sequence := adapter.sequence + 1
          queuedBytes := adapter.queuedBytes - pcm.length } :
        _ × List (AdapterEffect τ)) :=
    rfl
  rw [same] at next
  simpa [answered, accepted, emitted] using next.after_events events

theorem adapts_answered_error (pcm : Frame) (adapter : LocalWhisperStreamingAdapter)
    (error : LocalSttError) : Adapts (adapter.counted false)
      (adapter.answered pcm (.error error) : _ × List (AdapterEffect τ)) := by
  simp only [answered, reportError]
  split
  · exact .waits [] rfl fun pcm => by simp [counted]
  · exact .waits [_] rfl fun pcm => by simp [counted]

end LocalWhisperStreamingAdapter

/-! ## What the service does -/

namespace WorkerSession

/-- A step of a session that takes no append: it counts no frame, and a request that
it settles is answered for its frame unless the session is disposed. -/
structure Serves (takes : Nat → Prop) (session : WorkerSession τ)
    (stepped : WorkerSession τ × List (Nat × Settled τ)) : Prop where
  ready : session.ready → stepped.1.ready
  nextSequence : stepped.1.nextSequence = session.nextSequence
  disposed : session.disposed → stepped.1.disposed
  ownFate : ∀ entry ∈ stepped.2, entry.2 ≠ .error .outOfOrder
  taken : ∀ entry ∈ stepped.2, takes entry.1 → stepped.1.disposed ∨
    ∃ type turns, entry.2 = .ok (type, turns) ∧ (type = .accepted ∨ type = .result)

variable {takes : Nat → Prop} {session : WorkerSession τ} {error : LocalSttError}

theorem Serves.quiet {next : WorkerSession τ} (ready : session.ready → next.ready)
    (nextSequence : next.nextSequence = session.nextSequence)
    (disposed : session.disposed → next.disposed) : Serves takes session (next, []) where
  ready
  nextSequence
  disposed
  ownFate := forall_mem_nil _
  taken := forall_mem_nil _

theorem serves_fail (takes : Nat → Prop) (own : error ≠ .outOfOrder) (session : WorkerSession τ) :
    Serves takes session (session.fail error) where
  ready := id
  nextSequence := rfl
  disposed := fun _ => rfl
  ownFate := by simp [fail, own]
  taken := fun _ _ _ => .inl rfl

theorem serves_failRequest (takes : Nat → Prop) (own : error ≠ .outOfOrder) (requestId : Nat)
    (session : WorkerSession τ) : Serves takes session (session.failRequest requestId error) := by
  unfold failRequest
  split
  · exact
      { ready := id
        nextSequence := rfl
        disposed := fun _ => rfl
        ownFate := by simp [fail, own]
        taken := fun _ _ _ => .inl rfl }
  · exact .quiet id rfl id

theorem serves_exit (takes : Nat → Prop) (session : WorkerSession τ) :
    Serves takes session session.exit := by
  unfold exit
  split
  · exact .quiet id rfl id
  · exact serves_fail takes (by decide) session

/-- A line serves when an answer to a request that the worker must take is neither an
error nor the end of the session. -/
theorem serves_handleWorkerLine (session : WorkerSession τ) (message : WorkerMessage τ)
    (answers : ∀ requestId type turns, message = .answer requestId type turns →
      takes requestId → type ≠ .requestError ∧ type ≠ .stopped) :
    Serves takes session (session.handleWorkerLine message) := by
  cases message with
  | malformed => exact serves_fail takes (by decide) session
  | ready model =>
    unfold handleWorkerLine
    dsimp only
    split
    · exact .quiet (fun _ => rfl) rfl id
    · exact serves_fail takes (by decide) session
  | error => exact serves_fail takes (by decide) session
  | turns turns => exact .quiet id rfl id
  | unaddressed => exact .quiet id rfl id
  | answer requestId type turns =>
    have sound := answers requestId type turns rfl
    unfold handleWorkerLine
    dsimp only
    split
    · cases type with
      | other => exact .quiet id rfl id
      | accepted | result =>
        exact
          { ready := id
            nextSequence := rfl
            disposed := id
            ownFate := by simp
            taken := by simp }
      | requestError | stopped =>
        have never : ¬takes requestId := by simpa using sound
        exact
          { ready := id
            nextSequence := rfl
            disposed := id
            ownFate := by simp
            taken := by simp [never] }
    · exact .quiet id rfl id

/-- An append in sequence that a lasting session can take is counted and waits. -/
theorem appendAudio_of_inSequence {sequence : Nat} {pcm : Frame} (lasts : session.disposed = false)
    (runs : session.stopped = false) (ready : session.ready)
    (writable : session.stdinDestroyed = false) (inSequence : session.nextSequence = sequence)
    (sound : acceptsFrame pcm) : session.appendAudio sequence pcm =
      ({ session with
          nextSequence := session.nextSequence + 1
          nextRequestId := session.nextRequestId + 1
          pending := session.pending ++ [session.nextRequestId] },
        .ok session.nextRequestId) := by
  simp [appendAudio, sendRequest, lasts, runs, ready, writable, inSequence, sound]

theorem appendAudio_of_unavailable (unavailable : session.disposed || session.stopped)
    (sequence : Nat) (pcm : Frame) :
    session.appendAudio sequence pcm = (session, .error .unavailable) := by
  rw [appendAudio, if_pos unavailable]

end WorkerSession

/-! ## The invariant -/

/-- How many frames the service has counted ahead of the adapter. -/
def ahead : Option (Call τ) → Nat
  | some (.pending _ _) => 1
  | some (.settled _) => 1
  | some (.answered (.ok _)) => 1
  | _ => 0

/-- The frame of the append is the last one, and it is not accepted before the request
is settled. -/
def Logged (trace : List (TranscriptionObservation τ)) : Option (Call τ) → Prop
  | some (.requested _ pcm) | some (.pending _ pcm) =>
    ∃ before, appendedFrames trace = before ++ [pcm] ∧ (acceptedFrames trace).Sublist before
  | _ => (acceptedFrames trace).Sublist (appendedFrames trace)

variable {trace : List (TranscriptionObservation τ)}
  {config : Config (LocalTranscription τ) (TranscriptionObservation τ)}
  {system : LocalTranscription τ} {pcm : Frame} {settled : Settled τ} {sequence : Nat}
  {admits : Frame → Bool}

theorem Logged.sublist {call : Option (Call τ)} (logged : Logged trace call) :
    (acceptedFrames trace).Sublist (appendedFrames trace) := by
  unfold Logged at logged
  split at logged
  case h_3 => exact logged
  all_goals
    obtain ⟨before, appended, accepted⟩ := logged
    exact appended ▸ accepted.trans (sublist_append_left _ _)

/-- What an append has brought so far. -/
structure CallInPlace (system : LocalTranscription τ) : Prop where
  requested : ∀ sequence pcm, system.call = some (.requested sequence pcm) →
    sequence = system.adapter.sequence
  settled : ∀ settled, system.call = some (.settled settled) → system.session.disposed ∨
    ∃ type turns, settled = .ok (type, turns) ∧ (type = .accepted ∨ type = .result)
  answered : ∀ result, system.call = some (.answered (.ok result)) → result.accepted

structure InPlace (config : Config (LocalTranscription τ) (TranscriptionObservation τ)) :
    Prop where
  ready : config.state.session.ready
  awaited : config.state.call.isSome → ∃ pcm, config.state.adapter.pump = .awaiting pcm
  counted : config.state.session.disposed ∨
    config.state.session.nextSequence = config.state.adapter.sequence + ahead config.state.call
  call : CallInPlace config.state
  logged : Logged config.trace config.state.call
  inSequence : ∀ sequence nextSequence (disposed : Bool) pcm,
    .appended sequence nextSequence disposed pcm ∈ config.trace →
      disposed ∨ sequence = nextSequence
  ownFate : .refused .outOfOrder ∉ config.trace

theorem InPlace.keepsPlace (inPlace : InPlace config) : KeepsPlace config.trace where
  inSequence := inPlace.inSequence
  acceptedInOrder := inPlace.logged.sublist
  ownFate := inPlace.ownFate

theorem appendedFrames_append (trace observed : List (TranscriptionObservation τ)) :
    appendedFrames (trace ++ observed) = appendedFrames trace ++ appendedFrames observed :=
  filterMap_append

theorem acceptedFrames_append (trace observed : List (TranscriptionObservation τ)) :
    acceptedFrames (trace ++ observed) = acceptedFrames trace ++ acceptedFrames observed :=
  filterMap_append

/-- Observations that are neither appends nor about frames change nothing. -/
theorem InPlace.observe {observed : List (TranscriptionObservation τ)}
    (inPlace : InPlace ⟨system, trace⟩) (quiet : ∀ observation ∈ observed,
      (∃ event, observation = .event event) ∨
        ∃ error, observation = .refused error ∧ error ≠ .outOfOrder) :
    InPlace ⟨system, trace ++ observed⟩ := by
  have noAppend : appendedFrames observed = [] := by
    refine filterMap_eq_nil_iff.mpr fun observation found => ?_
    rcases quiet observation found with ⟨event, rfl⟩ | ⟨error, rfl, -⟩ <;> rfl
  have noAccept : acceptedFrames observed = [] := by
    refine filterMap_eq_nil_iff.mpr fun observation found => ?_
    rcases quiet observation found with ⟨event, rfl⟩ | ⟨error, rfl, -⟩ <;> rfl
  refine { inPlace with logged := ?_, inSequence := ?_, ownFate := ?_ }
  · have logged := inPlace.logged
    simpa [Logged, appendedFrames_append, acceptedFrames_append, noAppend, noAccept] using logged
  · intro sequence nextSequence disposed pcm found
    rcases mem_append.mp found with found | found
    · exact inPlace.inSequence sequence nextSequence disposed pcm found
    · rcases quiet _ found with ⟨event, isEvent⟩ | ⟨error, isRefusal, -⟩
      · cases isEvent
      · cases isRefusal
  · intro found
    rcases mem_append.mp found with found | found
    · exact inPlace.ownFate found
    · rcases quiet _ found with ⟨event, isEvent⟩ | ⟨error, isRefusal, own⟩
      · cases isEvent
      · cases isRefusal
        exact own rfl

namespace LocalTranscription

theorem perform_events (system : LocalTranscription τ)
    (events : List (StreamingTranscriptionEvent τ)) (rest : List (AdapterEffect τ)) :
    system.perform (events.map .event ++ rest) =
      ((system.perform rest).1, events.map .event ++ (system.perform rest).2) := by
  induction events with
  | nil => rfl
  | cons event events ih => simp [perform, ih]

end LocalTranscription

section

variable (inPlace : InPlace ⟨system, trace⟩)
include inPlace

theorem InPlace.events (events : List (StreamingTranscriptionEvent τ)) :
    InPlace ⟨system, trace ++ events.map .event⟩ :=
  inPlace.observe fun observation found => by
    obtain ⟨event, -, rfl⟩ := mem_map.mp found
    exact .inl ⟨event, rfl⟩

/-- The adapter appends a frame: nothing was under way, so the counts agree. -/
theorem InPlace.append (noCall : system.call = none) (awaits : system.adapter.pump = .awaiting pcm)
    : InPlace ⟨{ system with call := some (.requested system.adapter.sequence pcm) },
      trace ++ [.appended system.adapter.sequence system.session.nextSequence
        system.session.disposed pcm]⟩ := by
  have counted : system.session.disposed ∨
      system.session.nextSequence = system.adapter.sequence := by
    simpa [noCall, ahead] using inPlace.counted
  refine
    { ready := inPlace.ready
      awaited := fun _ => ⟨pcm, awaits⟩
      counted
      call := ⟨?_, ?_, ?_⟩
      logged := ?_
      inSequence := ?_
      ownFate := ?_ }
  · rintro sequence pcm ⟨⟩
    rfl
  · simp
  · simp
  · refine ⟨appendedFrames trace, ?_, ?_⟩
    · rw [appendedFrames_append]
      rfl
    · simpa [acceptedFrames] using inPlace.logged.sublist
  · intro sequence nextSequence disposed pcm found
    rcases mem_append.mp found with found | found
    · exact inPlace.inSequence sequence nextSequence disposed pcm found
    · cases mem_singleton.mp found
      exact counted.imp id Eq.symm
  · simpa using inPlace.ownFate

theorem InPlace.adapt {stepped : LocalWhisperStreamingAdapter × List (AdapterEffect τ)}
    (adapts : system.adapter.Adapts stepped) :
    InPlace ⟨(system.adapt stepped).1, trace ++ (system.adapt stepped).2⟩ := by
  cases adapts with
  | @waits next events same awaits =>
    have requested : ∀ sequence pcm, system.call = some (.requested sequence pcm) →
        sequence = next.sequence :=
      fun sequence pcm called => (inPlace.call.requested sequence pcm called).trans same.symm
    have moved : InPlace ⟨{ system with adapter := next }, trace⟩ :=
      { inPlace with
        awaited := fun called => (inPlace.awaited called).imp awaits
        counted := by simpa [same] using inPlace.counted
        call := { inPlace.call with requested } }
    have performed := LocalTranscription.perform_events { system with adapter := next } events []
    rw [append_nil] at performed
    rw [LocalTranscription.adapt, performed]
    simpa [LocalTranscription.perform] using moved.events events
  | @appends next pcm events same awaits notAwaiting =>
    have noCall : system.call = none := by
      cases called : system.call with
      | none => rfl
      | some call =>
        obtain ⟨pcm, awaiting⟩ := inPlace.awaited (by simp [called])
        exact absurd awaiting (notAwaiting pcm)
    have moved : InPlace ⟨{ system with adapter := next }, trace⟩ :=
      { inPlace with
        awaited := by simp [noCall]
        counted := by simpa [same] using inPlace.counted
        call := { inPlace.call with requested := by simp [noCall] } }
    have appended := (moved.events events).append noCall awaits
    rw [LocalTranscription.adapt, LocalTranscription.perform_events]
    simpa [LocalTranscription.perform] using appended

/-- A frame whose request is settled. -/
theorem InPlace.settledFrame {requestId : Nat}
    (called : system.call = some (.pending requestId pcm)) (own : settled ≠ .error .outOfOrder)
    (taken : system.session.disposed ∨
      ∃ type turns, settled = .ok (type, turns) ∧ (type = .accepted ∨ type = .result)) :
    InPlace ⟨{ system with call := some (.settled settled) },
      trace ++ [LocalTranscription.settledObservation pcm settled]⟩ := by
  have logged := inPlace.logged
  have awaited := inPlace.awaited
  have counted := inPlace.counted
  simp only [called, Option.isSome_some, true_implies] at logged awaited counted
  obtain ⟨before, appended, accepted⟩ := logged
  refine
    { ready := inPlace.ready
      awaited := fun _ => awaited
      counted
      call := ⟨by simp, ?_, by simp⟩
      logged := ?_
      inSequence := ?_
      ownFate := ?_ }
  · rintro _ ⟨⟩
    exact taken
  · change (acceptedFrames _).Sublist (appendedFrames _)
    rw [acceptedFrames_append, appendedFrames_append, appended]
    cases settled with
    | ok answer => exact (accepted.append_right [pcm]).trans (sublist_append_left _ _)
    | error error =>
      have inAppended := accepted.trans (sublist_append_left before [pcm])
      simpa [acceptedFrames, appendedFrames, LocalTranscription.settledObservation] using inAppended
  · intro sequence nextSequence disposed pcm found
    rcases mem_append.mp found with found | found
    · exact inPlace.inSequence sequence nextSequence disposed pcm found
    · cases settled <;> cases mem_singleton.mp found
  · intro found
    rcases mem_append.mp found with found | found
    · exact inPlace.ownFate found
    · cases settled with
      | ok answer => cases mem_singleton.mp found
      | error error =>
        cases mem_singleton.mp found
        exact own rfl

theorem InPlace.settle {takes : Nat → Prop} {stepped : WorkerSession τ × List (Nat × Settled τ)}
    (serves : system.session.Serves takes stepped)
    (takesOwn : ∀ requestId pcm, system.call = some (.pending requestId pcm) → takes requestId) :
    InPlace ⟨(system.settle stepped).1, trace ++ (system.settle stepped).2⟩ := by
  have served : InPlace ⟨{ system with session := stepped.1 }, trace⟩ :=
    { inPlace with
      ready := serves.ready inPlace.ready
      counted := inPlace.counted.imp serves.disposed fun counted =>
        serves.nextSequence.trans counted
      call :=
        { inPlace.call with
          settled := fun settled called =>
            (inPlace.call.settled settled called).imp_left serves.disposed } }
  unfold LocalTranscription.settle
  dsimp only
  split
  · next requestId pcm called =>
    split
    · next entry found =>
      have isEntry := mem_of_find?_eq_some found
      have sameId : entry.1 = requestId := by simpa using find?_some found
      exact served.settledFrame called (serves.ownFate entry isEntry)
        (serves.taken entry isEntry (sameId ▸ takesOwn requestId pcm called))
    · simpa using served
  · simpa using served

/-- A frame that does not reach the count of the service. -/
theorem InPlace.refuse {error : LocalSttError}
    (called : system.call = some (.requested sequence pcm)) (own : error ≠ .outOfOrder) :
    InPlace ⟨{ system with call := some (.answered (.error error)) },
      trace ++ [.refused error]⟩ := by
  have awaited := inPlace.awaited
  have counted := inPlace.counted
  simp only [called, Option.isSome_some, true_implies] at awaited counted
  have refused : InPlace ⟨{ system with call := some (.answered (.error error)) }, trace⟩ :=
    { inPlace with
      awaited := fun _ => awaited
      counted
      call := ⟨by simp, by simp, by simp⟩
      logged := inPlace.logged.sublist }
  exact refused.observe (by simpa using own)

theorem InPlace.deliver (called : system.call = some (.requested sequence pcm))
    (takes : TakesFrames admits system .deliver) : InPlace ⟨(system.deliver admits sequence pcm).1,
      trace ++ (system.deliver admits sequence pcm).2⟩ := by
  unfold LocalTranscription.deliver
  split
  · exact inPlace.refuse called (by decide)
  · next notRefused =>
    have admitted : admits pcm = true := by simpa using notRefused
    by_cases unavailable : system.session.disposed || system.session.stopped
    · rw [WorkerSession.appendAudio_of_unavailable unavailable]
      exact inPlace.refuse called (by decide)
    · simp only [Bool.or_eq_true, not_or, Bool.not_eq_true] at unavailable
      obtain ⟨lasts, runs⟩ := unavailable
      simp only [TakesFrames, called, lasts] at takes
      obtain ⟨sound, writable⟩ : WorkerSession.acceptsFrame pcm ∧
          system.session.stdinDestroyed = false := by
        simpa [admitted] using takes
      have sameSequence := inPlace.call.requested sequence pcm called
      have counted : system.session.nextSequence = system.adapter.sequence := by
        simpa [lasts, called, ahead] using inPlace.counted
      rw [WorkerSession.appendAudio_of_inSequence lasts runs inPlace.ready writable
        (counted.trans sameSequence.symm) sound]
      have awaited := inPlace.awaited
      have logged := inPlace.logged
      simp only [called, Option.isSome_some, true_implies] at awaited logged
      rw [append_nil]
      exact
        { inPlace with
          awaited := fun _ => awaited
          counted := .inr (congrArg (· + 1) counted)
          call := ⟨by simp, by simp, by simp⟩
          logged }

theorem InPlace.resume (called : system.call = some (.settled settled)) : InPlace ⟨{ system with
      session := (system.session.appended settled).1
      call := some (.answered (system.session.appended settled).2) }, trace⟩ := by
  have awaited := inPlace.awaited
  have counted := inPlace.counted
  have logged := inPlace.logged
  simp only [called, Option.isSome_some, true_implies] at awaited counted logged
  have same : (system.session.appended settled).1.ready = system.session.ready ∧
      (system.session.appended settled).1.disposed = system.session.disposed ∧
      (system.session.appended settled).1.nextSequence = system.session.nextSequence := by
    unfold WorkerSession.appended
    split
    · simp
    · split <;> simp
  refine
    { ready := same.1 ▸ inPlace.ready
      awaited := fun _ => awaited
      counted := ?_
      call := ⟨by simp, by simp, ?_⟩
      logged
      inSequence := inPlace.inSequence
      ownFate := inPlace.ownFate }
  · rcases inPlace.call.settled settled called with disposed | ⟨type, turns, rfl, isTaken⟩
    · exact .inl (same.2.1 ▸ disposed)
    · rcases isTaken with rfl | rfl <;> simpa [WorkerSession.appended, ahead] using counted
  · intro result answered
    unfold WorkerSession.appended at answered
    split at answered
    · simp at answered
    · split at answered
      · simp at answered
      · cases answered
        rfl

theorem InPlace.receive {outcome : Except LocalSttError (LocalSttAppendResult τ)}
    (called : system.call = some (.answered outcome)) : InPlace
      ⟨(LocalTranscription.adapt { system with call := none }
          (system.adapter.answered pcm outcome)).1,
        trace ++ (LocalTranscription.adapt { system with call := none }
          (system.adapter.answered pcm outcome)).2⟩ := by
  have counted := inPlace.counted
  have logged := inPlace.logged
  rw [called] at counted logged
  have received (accepted : Bool)
      (same : ahead (some (.answered outcome)) = if accepted then 1 else 0) :
      InPlace ⟨{ system with adapter := system.adapter.counted accepted, call := none },
        trace⟩ :=
    { inPlace with
      awaited := by simp
      counted := by
        rw [same] at counted
        exact counted
      call := ⟨by simp, by simp, by simp⟩
      logged }
  cases outcome with
  | ok result =>
    exact (received true rfl).adapt (LocalWhisperStreamingAdapter.adapts_answered_ok pcm
      system.adapter (inPlace.call.answered result called))
  | error error =>
    exact (received false rfl).adapt
      (LocalWhisperStreamingAdapter.adapts_answered_error pcm system.adapter error)

end

theorem inPlace_started : InPlace (Config.initial startedTranscription :
      Config (LocalTranscription τ) (TranscriptionObservation τ)) where
  ready := rfl
  awaited := by simp [startedTranscription]
  counted := .inr rfl
  call := ⟨by simp [startedTranscription], by simp [startedTranscription],
    by simp [startedTranscription]⟩
  logged := Sublist.refl _
  inSequence := by simp
  ownFate := by simp

theorem InPlace.step {next : Config (LocalTranscription τ) (TranscriptionObservation τ)}
    {action : TranscriptionAction τ} (inPlace : InPlace config)
    (advanced : advance (LocalTranscription.step admits) config action = some next)
    (takes : TakesFrames admits config.state action) : InPlace next := by
  obtain ⟨observed, stepped, traced⟩ := advance_eq_some_iff.mp advanced
  obtain ⟨system, trace⟩ := config
  obtain ⟨system', trace'⟩ := next
  subst traced
  -- A session without an answer to the append serves whatever the append is.
  have servedBy (result : WorkerSession τ × List (Nat × Settled τ))
      (serves : system.session.Serves (fun _ => True) result)
      (isStep : some (system.settle result) = some (system', observed)) :
      InPlace ⟨system', trace ++ observed⟩ := by
    have settled := inPlace.settle serves fun _ _ _ => trivial
    rwa [Option.some.inj isStep] at settled
  have adaptedBy (result : LocalWhisperStreamingAdapter × List (AdapterEffect τ))
      (adapts : system.adapter.Adapts result)
      (isStep : some (system.adapt result) = some (system', observed)) :
      InPlace ⟨system', trace ++ observed⟩ := by
    have adapted := inPlace.adapt adapts
    rwa [Option.some.inj isStep] at adapted
  unfold LocalTranscription.step at stepped
  cases action with
  | connected session =>
    dsimp only at stepped
    split at stepped
    · cases stepped
    · exact adaptedBy _ (LocalWhisperStreamingAdapter.adapts_connected _ _) stepped
  | sendAudio frame =>
    exact adaptedBy _ (LocalWhisperStreamingAdapter.adapts_sendAudio _ _) stepped
  | deliver =>
    dsimp only at stepped
    split at stepped
    · next sequence pcm called =>
      have delivered := inPlace.deliver called takes
      rwa [Option.some.inj stepped] at delivered
    · cases stepped
  | line message =>
    have serves : system.session.Serves
        (fun requestId => ∃ pcm, system.call = some (.pending requestId pcm))
        (system.session.handleWorkerLine message) := by
      refine system.session.serves_handleWorkerLine message ?_
      rintro requestId type turns rfl ⟨pcm, called⟩
      simpa [TakesFrames, called] using takes
    have settled := inPlace.settle serves fun requestId pcm called => ⟨pcm, called⟩
    rwa [Option.some.inj stepped] at settled
  | timeOut requestId =>
    exact servedBy _ (WorkerSession.serves_failRequest _ (by decide) requestId _) stepped
  | writeFailed requestId =>
    exact servedBy _ (WorkerSession.serves_failRequest _ (by decide) requestId _) stepped
  | stdinDestroyed =>
    cases stepped
    rw [append_nil]
    exact { inPlace with call := { inPlace.call with } }
  | exit => exact servedBy _ (WorkerSession.serves_exit _ _) stepped
  | resume =>
    dsimp only at stepped
    split at stepped
    · next settled called =>
      cases stepped
      rw [append_nil]
      exact inPlace.resume called
    · cases stepped
  | receive =>
    dsimp only at stepped
    split at stepped
    · next outcome pcm called awaits =>
      have received : InPlace
          ⟨(LocalTranscription.adapt { system with call := none }
              (system.adapter.answered pcm outcome)).1,
            trace ++ (LocalTranscription.adapt { system with call := none }
              (system.adapter.answered pcm outcome)).2⟩ := inPlace.receive called
      rwa [Option.some.inj stepped] at received
    · cases stepped
  | retry =>
    dsimp only at stepped
    split at stepped
    · next backingOff =>
      exact adaptedBy _ (LocalWhisperStreamingAdapter.adapts_takeNext _
        fun pcm => by simp [backingOff]) stepped
    · cases stepped
  | pumpSettled =>
    dsimp only at stepped
    split at stepped
    · next finished =>
      exact adaptedBy _ (LocalWhisperStreamingAdapter.adapts_pumpSettled _ finished) stepped
    · cases stepped

/-- In a run in which every append that reaches a lasting session is sound and taken by
the worker, the adapter and the service keep the same place. -/
theorem keepsPlace_of_reaches (admits : Frame → Bool)
    {config : Config (LocalTranscription τ) (TranscriptionObservation τ)}
    (reaches : Reaches (LocalTranscription.step admits) (takesFrames admits)
      startedTranscription config) : KeepsPlace config.trace := by
  refine InPlace.keepsPlace (reaches.invariant InPlace inPlace_started ?_)
  intro config next action _ inPlace advanced takes
  exact inPlace.step advanced takes

/-- `validateLocalSttAppendRequest`, in front of the service. -/
def boundaryAdmits (pcm : Frame) : Bool :=
  pcm.length ≠ 0 && pcm.length ≤ 32000 && pcm.length % 2 = 0

def startResponse : LocalSttStartResponse where
  sessionId := "s"
  providerSessionId := "local-s"
  model := localSttModel

/-- The worker accepts one frame after the other. -/
def acceptedRun : List (TranscriptionAction Unit) :=
  [.connected startResponse, .pumpSettled, .sendAudio [0, 1], .sendAudio [2, 3], .deliver,
    .line (.answer 0 .accepted []), .resume, .receive, .deliver,
    .line (.answer 1 .accepted []), .resume, .receive]

theorem keepsPlace_acceptedRun : ∃ config, exec (LocalTranscription.step boundaryAdmits)
        (Config.initial startedTranscription) acceptedRun = some config ∧
      .appended 1 1 false [2, 3] ∈ config.trace ∧
      acceptedFrames config.trace = [[0, 1], [2, 3]] ∧ KeepsPlace config.trace := by
  obtain ⟨config, executed, appended, accepted⟩ :
      ∃ config, exec (LocalTranscription.step boundaryAdmits)
        (Config.initial startedTranscription) acceptedRun = some config ∧
      .appended 1 1 false [2, 3] ∈ config.trace ∧
      acceptedFrames config.trace = [[0, 1], [2, 3]] :=
    ⟨_, rfl, by decide +kernel, by decide +kernel⟩
  exact ⟨config, executed, appended, accepted, keepsPlace_of_reaches boundaryAdmits
    (reaches_of_exec acceptedRun (by decide +kernel) executed)⟩

/-- The worker cannot decode the first of two frames. -/
def undecodedRun : List (TranscriptionAction Unit) :=
  [.connected startResponse, .pumpSettled, .sendAudio [0, 1], .sendAudio [2, 3], .deliver,
    .line (.answer 0 .requestError []), .resume, .receive, .pumpSettled, .deliver]

/-- The second frame has the number of the first one and is refused as well. -/
theorem not_keepsPlace_undecodedRun :
    ∃ config, Reaches (LocalTranscription.step boundaryAdmits) anyAnswers
        (startedTranscription : LocalTranscription Unit) config ∧
      .appended 0 1 false [2, 3] ∈ config.trace ∧ .refused .outOfOrder ∈ config.trace ∧
      ¬KeepsPlace config.trace := by
  obtain ⟨config, reaches, appended, refused⟩ := exists_reaches_of_exec
    (LocalTranscription.step boundaryAdmits) anyAnswers startedTranscription
    (fun config => .appended 0 1 false [2, 3] ∈ config.trace ∧ .refused .outOfOrder ∈ config.trace)
    undecodedRun (by decide +kernel) (by decide +kernel)
  exact ⟨config, reaches, appended, refused, fun keeps => keeps.ownFate refused⟩

end Obelus.Live.LocalStt
