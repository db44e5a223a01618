import Obelus.Data.Json
import Obelus.Data.Text
import Obelus.Live.MeetingReducer
import Obelus.Transition.Reaches

/-!
# The streaming adapter

The messages of a streaming session become transcription events.  The adapter
numbers the turn messages of a turn order: a message whose fingerprint differs
from the one before it gets the next revision, and a repeated message keeps its
revision.
-/

namespace Obelus.Live

open Obelus.Data

/-- The fields of a parsed message. -/
abbrev AssemblyMessage := List (String × Json)

def universalStreamingModels : List String :=
  ["universal-streaming-english", "universal-streaming-multilingual"]

def numberValue (value : Option Json) (fallback : Number) : Number :=
  match value with
  | some (.number number) => number
  | _ => fallback

def optionalNumber (value : Option Json) : Option Number :=
  match value with
  | some (.number number) => some number
  | _ => none

def stringValue (value : Option Json) (fallback : String) : String :=
  match value with
  | some (.string text) => text
  | _ => fallback

def booleanValue (value : Option Json) : Bool :=
  match value with
  | some (.bool value) => value
  | _ => false

/-- The word at an index of a message, unless it is no object or has no text. -/
def parseWord (message : AssemblyMessage) (turnIdentity : String) (rawWord : Json)
    (index : Nat) : Option TimedWord :=
  match rawWord.fields? with
  | none => none
  | some word =>
    let text := trim (stringValue (field word "text") "")
    if text = "" then none
    else
      some
        { id := turnIdentity ++ ":word:" ++ toString index
          text
          startMs := numberValue (field word "start") 0
          endMs := numberValue (field word "end") 0
          speakerLabel := match field word "speaker" with
            | some (.string label) => some label
            | _ => none
          confidence := optionalNumber (field word "confidence")
          final := booleanValue (field message "end_of_turn") }

def parseWords (message : AssemblyMessage) (turnIdentity : String) : List TimedWord :=
  match field message "words" with
  | some (.array words) =>
    words.zipIdx.filterMap fun entry => parseWord message turnIdentity entry.1 entry.2
  | _ => []

def isDurableAssemblyTurn (model : String) (message : AssemblyMessage) : Bool :=
  if !booleanValue (field message "end_of_turn") then false
  else if model ∈ universalStreamingModels then
    booleanValue (field message "turn_is_formatted")
  else true

structure StreamingSessionConfiguration where
  providerSessionId : String
  model : String

/-- The fingerprint of the last message of a turn order, and its revision. -/
structure NumberedTurn where
  fingerprint : List JsonToken
  revision : Nat

structure AssemblyStreamingAdapter where
  configuration : StreamingSessionConfiguration
  revisions : JsMap Number NumberedTurn

inductive StreamingTranscriptionEvent
  | turn (event : ProviderTurnEvent)
  | speakerRevision (event : ProviderSpeakerRevisionEvent)
  | termination (providerSessionId : String) (sessionDurationSeconds : Option Number)
      (audioDurationSeconds : Option Number)
  | error (providerSessionId : String) (error : LiveError)

namespace AssemblyStreamingAdapter

def new (configuration : StreamingSessionConfiguration) : AssemblyStreamingAdapter where
  configuration
  revisions := JsMap.empty

/-- The text by which repeated messages of a turn are recognized; `undefined`
is serialized as `null` inside an array. -/
def fingerprint (message : AssemblyMessage) (transcript : String)
    (speakerLabel : Option String) : List JsonToken :=
  (Json.array
    [.string transcript, (speakerLabel.map Json.string).getD .null,
      (field message "end_of_turn").getD .null, (field message "turn_is_formatted").getD .null,
      (field message "words").getD .null]).tokens

/-- The revision of a message, from the numbering of its turn order. -/
def nextRevision (previous : Option NumberedTurn) (fingerprint : List JsonToken) : Nat :=
  match previous with
  | none => 0
  | some previous =>
    if previous.fingerprint = fingerprint then previous.revision else previous.revision + 1

def parseTurn (host : Host) (adapter : AssemblyStreamingAdapter) (message : AssemblyMessage)
    (now : Number) : AssemblyStreamingAdapter × ProviderTurnEvent :=
  let turnOrder := numberValue (field message "turn_order") 0
  let turnId := stringValue (field message "turn_id") (host.numberText turnOrder)
  let transcript := stringValue (field message "transcript") ""
  let label := stringValue (field message "speaker_label") ""
  let speakerLabel := if label = "" then none else some label
  let fingerprint := fingerprint message transcript speakerLabel
  let revision := nextRevision (adapter.revisions.get? turnOrder) fingerprint
  let identity := adapter.configuration.providerSessionId ++ ":" ++ turnId
  let words := parseWords message identity
  let startMs :=
    ((optionalNumber (orNullish (field message "turn_start") (field message "start"))).orElse
      fun _ => words.head?.map (·.startMs)).getD 0
  let endMs :=
    ((optionalNumber (orNullish (field message "turn_end") (field message "end"))).orElse
      fun _ => words.getLast?.map (·.endMs)).getD startMs
  ({ adapter with revisions := adapter.revisions.set turnOrder ⟨fingerprint, revision⟩ },
    { providerSessionId := adapter.configuration.providerSessionId
      turnId
      turnOrder
      revision
      transcript
      speakerLabel
      words
      startMs
      endMs
      utteranceBoundary := booleanValue
        (orNullish (field message "utterance_boundary") (field message "end_of_turn"))
      endOfTurn := booleanValue (field message "end_of_turn")
      turnIsFormatted := booleanValue (field message "turn_is_formatted")
      durableFinal := isDurableAssemblyTurn adapter.configuration.model message
      receivedAtMs := now })

/-- One entry of a speaker revision message. -/
def parseRevision (host : Host) (adapter : AssemblyStreamingAdapter) (rawRevision : Json) :
    Option SpeakerRevision :=
  rawRevision.fields?.map fun revision =>
    let turnOrder := numberValue (field revision "turn_order") 0
    { turnOrder
      speakerLabel := stringValue (field revision "speaker_label") "UNKNOWN"
      words := parseWords (("end_of_turn", .bool true) :: revision)
        (adapter.configuration.providerSessionId ++ ":" ++ host.numberText turnOrder) }

def parseSpeakerRevision (host : Host) (adapter : AssemblyStreamingAdapter)
    (message : AssemblyMessage) : ProviderSpeakerRevisionEvent where
  providerSessionId := adapter.configuration.providerSessionId
  revisions := match field message "revisions" with
    | some (.array revisions) => revisions.filterMap (adapter.parseRevision host)
    | _ => []

/-- The event a message becomes, if any, and the adapter after it. -/
def handleMessage (host : Host) (adapter : AssemblyStreamingAdapter) (message : AssemblyMessage)
    (now : Number) : AssemblyStreamingAdapter × Option StreamingTranscriptionEvent :=
  match field message "type" with
  | some (.string "Turn") =>
    let (adapter, event) := adapter.parseTurn host message now
    (adapter, some (.turn event))
  | some (.string "SpeakerRevision") =>
    (adapter, some (.speakerRevision (adapter.parseSpeakerRevision host message)))
  | some (.string "Termination") =>
    (adapter, some (.termination adapter.configuration.providerSessionId
      (optionalNumber (field message "session_duration_seconds"))
      (optionalNumber (field message "audio_duration_seconds"))))
  | some (.string "Error") =>
    let status := numberValue (field message "status") 0
    (adapter, some (.error adapter.configuration.providerSessionId
      { code := stringValue (field message "error_code") "stt_provider_error"
        message := "The transcription provider could not continue this stream."
        retryable := status ≥ 500 || status = 429 }))
  | _ => (adapter, none)

end AssemblyStreamingAdapter

end Obelus.Live

/-!
## From provider messages to the shown transcript

The streaming adapter numbers the turn messages of a session, and the reducer
shows a turn event only if its number is larger than the stored revision.
Speaker revisions count the stored revision up as well, so a turn message may
arrive with a number that is no longer large enough.  The transcript shows the
latest text of every turn exactly in the runs in which this does not happen.
-/

namespace Obelus.Live.TranscriptUpdates

open Obelus.Data
open Obelus.Transition

/-- The adapter of a session and the meeting its events are dispatched to. -/
structure LiveTranscript where
  adapter : AssemblyStreamingAdapter
  meeting : LiveMeetingState

/-- A message, the clock at its arrival, and what the runtime adds to the turn
event it becomes. -/
structure Delivery where
  message : AssemblyMessage
  now : Number
  context : ProviderTurnContext

/-- Handle one message: the adapter's event is dispatched to the reducer. -/
def step (host : Host) : Machine LiveTranscript Delivery StreamingTranscriptionEvent :=
  fun transcript delivery =>
    match transcript.adapter.handleMessage host delivery.message delivery.now with
    | (adapter, none) => some (⟨adapter, transcript.meeting⟩, [])
    | (adapter, some (.turn event)) =>
      let meeting :=
        meetingReducer host transcript.meeting (.providerTurn event delivery.context)
      some (⟨adapter, meeting⟩, [.turn event])
    | (adapter, some (.speakerRevision event)) =>
      let meeting := meetingReducer host transcript.meeting (.speakerRevision event)
      some (⟨adapter, meeting⟩, [.speakerRevision event])
    | (adapter, some event) => some (⟨adapter, transcript.meeting⟩, [event])

/-- The turn event a delivery becomes. -/
def turnEvent? (host : Host) (transcript : LiveTranscript) (delivery : Delivery) :
    Option ProviderTurnEvent :=
  match (transcript.adapter.handleMessage host delivery.message delivery.now).2 with
  | some (.turn event) => some event
  | _ => none

def turn? : StreamingTranscriptionEvent → Option ProviderTurnEvent
  | .turn event => some event
  | _ => none

def turnOfOrder? (turnOrder : Number) : StreamingTranscriptionEvent → Option ProviderTurnEvent
  | .turn event => if event.turnOrder = turnOrder then some event else none
  | _ => none

/-- The last turn event of a turn order. -/
def lastTurn? (turnOrder : Number) (trace : List StreamingTranscriptionEvent) :
    Option ProviderTurnEvent :=
  (trace.filterMap (turnOfOrder? turnOrder)).getLast?

def eventKey (event : ProviderTurnEvent) : String :=
  transcriptTurnKey event.providerSessionId event.turnId

/-- The active turn of every turn order shows the transcript of the last turn
message of that order. -/
def ShowsLatest (config : Config LiveTranscript StreamingTranscriptionEvent) : Prop :=
  ∀ turnOrder event, lastTurn? turnOrder config.trace = some event →
    shownText config.state.meeting.activeTurns (eventKey event) =
      some (turnOrder, event.transcript)

/-- No delivery makes the active turns bleed duplicates of each other. -/
def bleedFreeTurns (host : Host) : Guard LiveTranscript Delivery StreamingTranscriptionEvent :=
  fun config delivery _ => ∀ event ∈ turnEvent? host config.state delivery,
    BleedFree host (config.state.meeting.activeTurns.put
      (providerTurn config.state.meeting event delivery.context)).values

/-- The reducer takes the event, or shows its text already. -/
def TakesTurn (meeting : LiveMeetingState) (event : ProviderTurnEvent) : Prop :=
  (acceptsProviderTurns meeting = true ∧ Newer meeting event) ∨
    shownText meeting.activeTurns (eventKey event) = some (event.turnOrder, event.transcript)

/-- The last turn events of the other turn orders have other keys. -/
def OwnKey (trace : List StreamingTranscriptionEvent) (event : ProviderTurnEvent) : Prop :=
  ∀ other ∈ trace.filterMap turn?, lastTurn? other.turnOrder trace = some other →
    other.turnOrder ≠ event.turnOrder → eventKey other ≠ eventKey event

/-- Every turn message is taken or repeats the shown text, and no other turn
goes by its id. -/
def takesTurns (host : Host) : Guard LiveTranscript Delivery StreamingTranscriptionEvent :=
  fun config delivery _ => ∀ event ∈ turnEvent? host config.state delivery,
    TakesTurn config.state.meeting event ∧ OwnKey config.trace event

section Delivery

variable {host : Host} {config next : Config LiveTranscript StreamingTranscriptionEvent}
  {delivery : Delivery}

theorem lastTurn?_append_turn (trace : List StreamingTranscriptionEvent)
    (event : ProviderTurnEvent) (turnOrder : Number) :
    lastTurn? turnOrder (trace ++ [.turn event]) =
      if event.turnOrder = turnOrder then some event else lastTurn? turnOrder trace := by
  by_cases same : event.turnOrder = turnOrder
  · simp [lastTurn?, turnOfOrder?, same]
  · simp [lastTurn?, turnOfOrder?, same]

variable {event : ProviderTurnEvent} {meeting : LiveMeetingState} {context : ProviderTurnContext}

theorem lastTurn?_eq_some {trace : List StreamingTranscriptionEvent} {turnOrder : Number}
    (last : lastTurn? turnOrder trace = some event) :
    event ∈ trace.filterMap turn? ∧ event.turnOrder = turnOrder := by
  obtain ⟨observed, member, ofOrder⟩ := List.mem_filterMap.mp (List.mem_of_getLast? last)
  rcases observed with turn | _ | _ | _
  · simp only [turnOfOrder?, Option.ite_none_right_eq_some, Option.some.injEq] at ofOrder
    obtain ⟨orderEq, rfl⟩ := ofOrder
    exact ⟨List.mem_filterMap.mpr ⟨_, member, rfl⟩, orderEq⟩
  all_goals exact absurd ofOrder (by simp [turnOfOrder?])

/-- A turn event goes to the reducer and into the trace. -/
theorem advance_turn (advanced : advance (step host) config delivery = some next)
    (becomes : turnEvent? host config.state delivery = some event) :
    next.state.meeting = meetingReducer host config.state.meeting
        (.providerTurn event delivery.context) ∧
      next.trace = config.trace ++ [.turn event] := by
  obtain ⟨emitted, stepped, traceEq⟩ := advance_eq_some_iff.mp advanced
  unfold turnEvent? at becomes
  unfold step at stepped
  rcases handled : config.state.adapter.handleMessage host delivery.message delivery.now with
    ⟨adapter, handledEvent⟩
  rw [handled] at becomes stepped
  split at becomes
  · rename_i handledTurn isTurn
    subst isTurn
    cases becomes
    simp only [Option.some.injEq, Prod.mk.injEq] at stepped
    rw [traceEq, ← stepped.1, ← stepped.2]
    exact ⟨rfl, rfl⟩
  · contradiction

/-- Any other delivery leaves the shown texts and the turn events alone. -/
theorem advance_other (advanced : advance (step host) config delivery = some next)
    (becomes : turnEvent? host config.state delivery = none) :
    (∀ key, shownText next.state.meeting.activeTurns key =
      shownText config.state.meeting.activeTurns key) ∧
      ∀ turnOrder, lastTurn? turnOrder next.trace = lastTurn? turnOrder config.trace := by
  obtain ⟨emitted, stepped, traceEq⟩ := advance_eq_some_iff.mp advanced
  unfold turnEvent? at becomes
  unfold step at stepped
  rcases handled : config.state.adapter.handleMessage host delivery.message delivery.now with
    ⟨adapter, handledEvent⟩
  rw [handled] at becomes stepped
  rcases handledEvent with - | ⟨event | event | event | event⟩
  · simp only [Option.some.injEq, Prod.mk.injEq] at stepped
    rw [traceEq, ← stepped.1, ← stepped.2]
    exact ⟨fun _ => rfl, fun _ => by simp⟩
  · simp at becomes
  all_goals
    simp only [Option.some.injEq, Prod.mk.injEq] at stepped
    rw [traceEq, ← stepped.1, ← stepped.2]
    refine ⟨fun key => ?_, fun _ => by simp [lastTurn?, turnOfOrder?]⟩
  · exact shownText_applySpeakerRevision event key
  · rfl
  · rfl

/-- What the reducer shows after a turn event that it takes. -/
theorem shownText_of_taken (accepts : acceptsProviderTurns meeting = true)
    (newer : Newer meeting event) (bleedFree : BleedFree host (meeting.activeTurns.put
      (providerTurn meeting event context)).values) (key : String) :
    shownText (meetingReducer host meeting (.providerTurn event context)).activeTurns key =
      if key = eventKey event then some (event.turnOrder, event.transcript)
      else shownText meeting.activeTurns key := by
  simp only [meetingReducer, accepts, if_true, shownText]
  rw [get?_applyProviderTurn newer bleedFree]
  change Option.map _ (if key = eventKey event then _ else _) = _
  split <;> rfl

/-- The reducer ignores a turn event that it does not take. -/
theorem meetingReducer_of_not_taken
    (untaken : ¬(acceptsProviderTurns meeting = true ∧ Newer meeting event)) :
    meetingReducer host meeting (.providerTurn event context) = meeting := by
  by_cases accepts : acceptsProviderTurns meeting = true
  · simp only [meetingReducer, accepts]
    exact applyProviderTurn_of_not_newer fun newer => untaken ⟨accepts, newer⟩
  · simp [meetingReducer, accepts]

theorem showsLatest_turn_iff (shows : ShowsLatest config)
    (advanced : advance (step host) config delivery = some next)
    (becomes : turnEvent? host config.state delivery = some event)
    (bleedFree : BleedFree host (config.state.meeting.activeTurns.put
      (providerTurn config.state.meeting event delivery.context)).values) :
    ShowsLatest next ↔ TakesTurn config.state.meeting event ∧ OwnKey config.trace event := by
  obtain ⟨meetingEq, traceEq⟩ := advance_turn advanced becomes
  -- the text shown under the key of the event, and under every other key
  have own : TakesTurn config.state.meeting event ↔
      shownText next.state.meeting.activeTurns (eventKey event) =
        some (event.turnOrder, event.transcript) := by
    rw [meetingEq]
    by_cases taken : acceptsProviderTurns config.state.meeting = true ∧
        Newer config.state.meeting event
    · rw [shownText_of_taken taken.1 taken.2 bleedFree, if_pos rfl]
      exact iff_of_true (Or.inl taken) rfl
    · rw [meetingReducer_of_not_taken taken]
      exact ⟨fun takes => takes.resolve_left taken, Or.inr⟩
  have others : ∀ key, key ≠ eventKey event →
      shownText next.state.meeting.activeTurns key =
        shownText config.state.meeting.activeTurns key := by
    intro key differ
    rw [meetingEq]
    by_cases taken : acceptsProviderTurns config.state.meeting = true ∧
        Newer config.state.meeting event
    · rw [shownText_of_taken taken.1 taken.2 bleedFree, if_neg differ]
    · rw [meetingReducer_of_not_taken taken]
  constructor
  · intro showsNext
    have shown := showsNext event.turnOrder event (by
      rw [traceEq, lastTurn?_append_turn, if_pos rfl])
    refine ⟨own.mpr shown, ?_⟩
    intro other _ last differ sameKey
    have shownOther := showsNext other.turnOrder other (by
      rw [traceEq, lastTurn?_append_turn, if_neg (Ne.symm differ), last])
    rw [sameKey, shown] at shownOther
    exact differ (congrArg Prod.fst (Option.some.inj shownOther)).symm
  · rintro ⟨takes, ownKey⟩ turnOrder latest last
    rw [traceEq, lastTurn?_append_turn] at last
    split at last
    · rename_i orderEq
      cases last
      rw [← orderEq]
      exact own.mp takes
    · rename_i orderNe
      obtain ⟨member, latestOrder⟩ := lastTurn?_eq_some last
      have differ := ownKey latest member (latestOrder.symm ▸ last)
        (latestOrder.symm ▸ Ne.symm orderNe)
      rw [others _ differ]
      exact shows turnOrder latest last

end Delivery

instance (host : Host) : ∀ config delivery next,
    Decidable (bleedFreeTurns host config delivery next) :=
  fun config delivery _ =>
    inferInstanceAs (Decidable (∀ event ∈ turnEvent? host config.state delivery, _))

instance (meeting : LiveMeetingState) (event : ProviderTurnEvent) :
    Decidable (TakesTurn meeting event) :=
  inferInstanceAs (Decidable (_ ∨ _))

instance (trace : List StreamingTranscriptionEvent) (event : ProviderTurnEvent) :
    Decidable (OwnKey trace event) :=
  inferInstanceAs (Decidable (∀ other ∈ trace.filterMap turn?, _))

instance (host : Host) : ∀ config delivery next,
    Decidable (takesTurns host config delivery next) :=
  fun config delivery _ =>
    inferInstanceAs (Decidable (∀ event ∈ turnEvent? host config.state delivery, _))

/-- A session that starts with a fresh adapter. -/
def freshSession (configuration : StreamingSessionConfiguration) (meeting : LiveMeetingState) :
    Config LiveTranscript StreamingTranscriptionEvent :=
  Config.initial ⟨AssemblyStreamingAdapter.new configuration, meeting⟩

/-- For every sequence of messages without bleed, the active turns show the
latest transcripts after every message exactly if the reducer takes every turn
message, or shows its text already, and no turn id is used for two turns. -/
theorem showsLatest_throughout_iff (host : Host) (configuration : StreamingSessionConfiguration)
    (meeting : LiveMeetingState) (deliveries : List Delivery)
    (bleedFree : Admissible (step host) (bleedFreeTurns host)
      (freshSession configuration meeting) deliveries) :
    Throughout (step host) ShowsLatest (freshSession configuration meeting) deliveries ↔
      Admissible (step host) (takesTurns host) (freshSession configuration meeting)
        deliveries := by
  refine throughout_iff_admissible ?_ ?_ bleedFree
  · intro config next delivery shows advanced bleedFree
    cases becomes : turnEvent? host config.state delivery with
    | none =>
      obtain ⟨sameTexts, sameTurns⟩ := advance_other advanced becomes
      have showsNext : ShowsLatest next := by
        intro turnOrder event last
        rw [sameTexts]
        exact shows turnOrder event (sameTurns turnOrder ▸ last)
      exact iff_of_true showsNext (by simp [takesTurns, becomes])
    | some event =>
      rw [showsLatest_turn_iff shows advanced becomes (bleedFree event becomes)]
      simp [takesTurns, becomes]
  · intro turnOrder event last
    simp [freshSession, lastTurn?] at last

def recordedConfiguration : StreamingSessionConfiguration where
  providerSessionId := "session-1"
  model := "universal-streaming-english"

def recordedDelivery (message : AssemblyMessage) : Delivery where
  message
  now := 0
  context := ⟨none, none, none, none⟩

def turnMessage (transcript : String) : Delivery :=
  recordedDelivery
    [("type", .string "Turn"), ("turn_order", .number 0), ("transcript", .string transcript),
      ("end_of_turn", .bool true), ("words", .array [])]

def speakerRevisionMessage : Delivery :=
  recordedDelivery
    [("type", .string "SpeakerRevision"),
      ("revisions", .array [.object [("turn_order", .number 0), ("speaker_label", .string "A")]])]

theorem showsLatest_throughout_recordedTurns : Throughout (step recordedHost) ShowsLatest
      (freshSession recordedConfiguration initialMeetingState)
      [turnMessage "The sky", turnMessage "The sky is blue.", speakerRevisionMessage] :=
  (showsLatest_throughout_iff recordedHost recordedConfiguration initialMeetingState
    [turnMessage "The sky", turnMessage "The sky is blue.", speakerRevisionMessage]
    (by decide +kernel)).mpr (by decide +kernel)

/-- A speaker revision counts the stored revision up to the number that the
next turn message gets, and the reducer drops that message. -/
def overtakenDeliveries : List Delivery :=
  [turnMessage "The sky", speakerRevisionMessage, turnMessage "The sky is blue."]

theorem not_showsLatest_of_speakerRevision :
    Admissible (step recordedHost) (bleedFreeTurns recordedHost)
        (freshSession recordedConfiguration initialMeetingState) overtakenDeliveries ∧
      ∃ config, exec (step recordedHost)
          (freshSession recordedConfiguration initialMeetingState) overtakenDeliveries =
            some config ∧ ¬ShowsLatest config := by
  refine ⟨by decide +kernel, ?_⟩
  obtain ⟨config, executed, event, last, stale⟩ : ∃ config ∈ exec (step recordedHost)
      (freshSession recordedConfiguration initialMeetingState) overtakenDeliveries,
      ∃ event ∈ lastTurn? 0 config.trace,
        shownText config.state.meeting.activeTurns (eventKey event) ≠
          some (0, event.transcript) := by
    decide +kernel
  exact ⟨config, executed, fun shows => stale (shows 0 event last)⟩

end Obelus.Live.TranscriptUpdates
