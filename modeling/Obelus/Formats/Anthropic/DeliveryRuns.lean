import Mathlib.Data.List.Forall2
import Mathlib.Data.List.ReduceOption
import Obelus.Formats.Anthropic.Delivery

/-!
# Runs over delivered replies

What a stream yields over the lines of a delivered reply: what each block yields, and at its
end the usage.
-/

namespace Obelus.Formats.Anthropic

open List
open StreamState (onContentBlockStart onContentBlockStop onEvent pushArguments stoppedThinking)

variable {host : Host}

/-- An event of the loop. -/
def Consumed.event (host : Host) (consumed : Consumed) (event : StreamingEvent) : Consumed :=
  match consumed.flow with
  | .continues =>
    let handled := consumed.state.onEvent host event
    { state := handled.state
      yields := consumed.yields ++ handled.yields
      flow := handled.flow }
  | _ => consumed

theorem onEvent_of_isUnknown {state : StreamState} {event : StreamingEvent}
    (isUnknown : event.isUnknown) : state.onEvent host event = { state } := by
  unfold StreamingEvent.isUnknown at isUnknown
  unfold onEvent
  split_ifs at isUnknown with isDelta
  · rw [isDelta]
    simp [StreamState.onContentBlockDelta, Option.isNone_iff_eq_none.mp isUnknown]
  · simp only [contains_eq_mem, mem_cons, not_mem_nil, or_false,
      Bool.not_eq_true', decide_eq_false_iff_not, not_or] at isUnknown
    obtain ⟨start, blockStart, blockStop, delta, stop⟩ := isUnknown
    split
    · exact absurd ‹_› start
    · exact absurd ‹_› blockStart
    · exact absurd ‹_› isDelta
    · exact absurd ‹_› blockStop
    · exact absurd ‹_› delta
    · exact absurd ‹_› stop
    · rfl

variable {consumed : Consumed} {events : List StreamingEvent} {pieces : List String} {name : String}
  {merged : Option Usage}

theorem Consumed.event_of_isUnknown {event : StreamingEvent} (isUnknown : event.isUnknown) :
    consumed.event host event = consumed := by
  obtain ⟨state, yields, flow⟩ := consumed
  cases flow with
  | continues => simp [Consumed.event, onEvent_of_isUnknown isUnknown]
  | breaks => rfl
  | fails error => rfl

/-- A line that does not end the stream does what its event does. -/
theorem line_eq_event {line : String} (consumed : Consumed)
    (notDone : readLine host line ≠ .done) : consumed.line host (.ok line) =
      (lineEvent host line).toList.foldl (Consumed.event host) consumed := by
  cases isLine : readLine host line with
  | skipped =>
    simp only [lineEvent, isLine, Consumed.line]
    split <;> rfl
  | done => exact absurd isLine notDone
  | event event =>
    have handles : consumed.line host (.ok line) = consumed.event host event := by
      obtain ⟨state, yields, flow⟩ := consumed
      cases flow <;> simp only [Consumed.line, Consumed.event, isLine]
    rw [handles, lineEvent, isLine]
    dsimp only
    split
    · next isUnknown => exact Consumed.event_of_isUnknown isUnknown
    · rfl

/-- Without an end of the stream, the lines do what their events do. -/
theorem Reads.lines {lines : List String} (reads : Reads host lines events) (consumed : Consumed) :
    consumed.lines host (lines.map .ok) = events.foldl (Consumed.event host) consumed := by
  obtain ⟨notDone, rfl⟩ := reads
  induction lines generalizing consumed with
  | nil => rfl
  | cons line rest ih =>
    have here := line_eq_event consumed (notDone line (.head _))
    have later := ih (consumed.line host (.ok line)) fun other member =>
      notDone other (.tail _ member)
    change Consumed.lines host (consumed.line host (.ok line)) (rest.map .ok) = _
    rw [later, here, filterMap_cons]
    cases lineEvent host line <;> rfl

/-- Lines that are all known events. -/
theorem Reads.of_events {lines : List String}
    (areEvents : Forall₂ (fun line event => readLine host line = .event event ∧
      event.isUnknown = false) lines events) : Reads host lines events := by
  induction areEvents with
  | nil => exact ⟨nofun, rfl⟩
  | @cons line event lines events isEvent _ ih =>
    refine ⟨forall_mem_cons.mpr ⟨?_, ih.1⟩, ?_⟩
    · rw [isEvent.1]
      exact Line.noConfusion
    · have here : lineEvent host line = some event := by
        simp only [lineEvent, isEvent.1, isEvent.2, Bool.false_eq_true, if_false]
      rw [filterMap_cons, here, ih.2]

/-- No block is open. -/
structure StreamState.Idle (state : StreamState) : Prop where
  thinking : state.thinking = none
  currentToolId : state.currentToolId = none
  accumulatedToolCalls : state.accumulatedToolCalls = []

/-- What a delta does. -/
def StreamState.onDelta (host : Host) (state : StreamState) : ContentBlockDelta → Handled
  | .textDelta text =>
    { state, yields := [state.blockMessage (.text (sanitizeUnicodeTags host text))] }
  | .inputJsonDelta partialJson => { state := state.pushArguments partialJson }
  | .thinkingDelta text =>
    { state :=
        { state with
          thinking := state.thinking.map fun thinking =>
            { thinking with text := thinking.text ++ text } } }
  | .signatureDelta signature =>
    { state :=
        { state with
          thinking := state.thinking.map fun thinking =>
            { thinking with signature := thinking.signature ++ signature } } }

theorem onEvent_of_delta {state : StreamState} {event : StreamingEvent}
    {delta : ContentBlockDelta} (isDelta : event.eventType = "content_block_delta" ∧
      (event.data.get "delta").bind deltaOf = some delta) :
    state.onEvent host event = state.onDelta host delta := by
  rw [onEvent, isDelta.1, StreamState.onContentBlockDelta, isDelta.2]
  cases delta <;> rfl

/-- The events of a division. -/
abbrev AreDeltas (changes : List StreamingEvent) (deltas : List ContentBlockDelta) : Prop :=
  List.Forall₂ (fun change delta => change.eventType = "content_block_delta" ∧
    (change.data.get "delta").bind deltaOf = some delta) changes deltas

variable {state : StreamState} {yields : List Yielded} {changes : List StreamingEvent}

theorem foldl_textDeltas (areDeltas : AreDeltas changes (pieces.map .textDelta)) :
    changes.foldl (Consumed.event host) ⟨state, yields, .continues⟩ =
      ⟨state, yields ++ pieces.map fun piece =>
        state.blockMessage (.text (sanitizeUnicodeTags host piece)), .continues⟩ := by
  induction pieces generalizing changes yields with
  | nil =>
    cases areDeltas
    simp
  | cons piece rest ih =>
    cases areDeltas with
    | cons isDelta areDeltas =>
      rw [foldl_cons, Consumed.event]
      rw [onEvent_of_delta isDelta, StreamState.onDelta, ih areDeltas, append_assoc]
      rfl

theorem foldl_thinkingDeltas {thinking : ThinkingState} {pieces : List ThinkingPiece}
    (isOpen : state.thinking = some thinking)
    (areDeltas : AreDeltas changes (pieces.map ThinkingPiece.delta)) :
    changes.foldl (Consumed.event host) ⟨state, yields, .continues⟩ =
      ⟨{ state with thinking := some (pieces.foldl ThinkingPiece.add thinking) }, yields,
        .continues⟩ := by
  induction pieces generalizing changes state thinking with
  | nil =>
    cases areDeltas
    rw [foldl_nil, foldl_nil, ← isOpen]
  | cons piece rest ih =>
    cases areDeltas with
    | cons isDelta areDeltas =>
      rw [foldl_cons, Consumed.event]
      rw [onEvent_of_delta isDelta]
      cases piece with
      | text piece =>
        rw [ThinkingPiece.delta, StreamState.onDelta]
        dsimp only
        rw [isOpen, append_nil, ih rfl areDeltas]
        rfl
      | signature piece =>
        rw [ThinkingPiece.delta, StreamState.onDelta]
        dsimp only
        rw [isOpen, append_nil, ih rfl areDeltas]
        rfl

theorem foldl_inputDeltas {id args : String} (isOpen : state.currentToolId = some id)
    (accumulated : state.accumulatedToolCalls = [(id, (name, args))])
    (areDeltas : AreDeltas changes (pieces.map .inputJsonDelta)) :
    changes.foldl (Consumed.event host) ⟨state, yields, .continues⟩ =
      ⟨{ state with accumulatedToolCalls := [(id, (name, args ++ String.join pieces))] }, yields,
        .continues⟩ := by
  induction pieces generalizing changes state args with
  | nil =>
    cases areDeltas
    rw [foldl_nil, String.join_nil, String.append_empty, ← accumulated]
  | cons piece rest ih =>
    cases areDeltas with
    | cons isDelta areDeltas =>
      rw [foldl_cons, Consumed.event]
      rw [onEvent_of_delta isDelta, StreamState.onDelta]
      dsimp only
      have pushed : (state.pushArguments piece).accumulatedToolCalls =
          [(id, (name, args ++ piece))] := by
        simp [pushArguments, isOpen, accumulated]
      have stillOpen : (state.pushArguments piece).currentToolId = some id := by
        simp [pushArguments, isOpen]
      rw [append_nil, ih stillOpen pushed areDeltas, String.append_assoc]
      simp [pushArguments, isOpen]

/-- What the stream yields for a block. -/
def Division.yielded (host : Host) (state : StreamState) : Division → List Yielded
  | .text _ pieces =>
    pieces.map fun piece => state.blockMessage (.text (sanitizeUnicodeTags host piece))
  | .thinking start pieces =>
    let whole := pieces.foldl ThinkingPiece.add start
    if whole.text.isEmpty then []
    else [state.blockMessage (.thinking whole.text whole.signature)]
  | .redactedThinking data => [state.blockMessage (.redactedThinking data)]
  | .toolUse id name _ input =>
    [state.blockMessage (.toolRequest id (.ok { name, arguments := some input }))]

theorem toolRequest_of_writesInput {id : String} {input : JsonObject}
    (writes : (Division.toolUse id name pieces input).WritesInput host) :
    StreamState.toolRequest host id name (String.join pieces) =
      .ok (.toolRequest id (.ok { name, arguments := some input })) := by
  rcases writes with ⟨empty, rfl⟩ | ⟨notEmpty, parses⟩
  · rw [empty]
    rfl
  · have hasText : (String.join pieces).isEmpty = false := by
      simpa [String.isEmpty_iff] using notEmpty
    simp only [StreamState.toolRequest, hasText, Bool.false_eq_true, if_false,
      parseToolArguments_of_object parses hasText, object]

theorem Consumed.event_continues (state : StreamState) (yields : List Yielded)
    (event : StreamingEvent) : Consumed.event host ⟨state, yields, .continues⟩ event =
      ⟨(state.onEvent host event).state, yields ++ (state.onEvent host event).yields,
        (state.onEvent host event).flow⟩ :=
  rfl

/-- The start of a block. -/
def Division.started (state : StreamState) : Division → Handled
  | .text _ _ => { state }
  | .thinking start _ => { state := { state with thinking := some start } }
  | .redactedThinking data =>
    { state, yields := [state.blockMessage (.redactedThinking data)] }
  | .toolUse id name _ _ =>
    { state :=
        { state with
          currentToolId := some id
          accumulatedToolCalls := [(id, (name, ""))] } }

theorem onEvent_of_isStart (idle : state.Idle) {event : StreamingEvent} {division : Division}
    (starts : event.eventType = "content_block_start" ∧
      ∃ value, event.data.get "content_block" = some value ∧ division.IsStart value) :
    state.onEvent host event = division.started state := by
  obtain ⟨isStart, value, isValue, starts⟩ := starts
  rw [onEvent, isStart]
  cases division with
  | text start pieces =>
    simp only [onContentBlockStart, isValue, starts.1]
    rfl
  | thinking start pieces =>
    simp only [onContentBlockStart, isValue, starts.1, starts.2.1, starts.2.2,
      Division.started]
  | redactedThinking data =>
    simp only [onContentBlockStart, isValue, starts.1, starts.2, Division.started]
  | toolUse id name pieces input =>
    simp only [onContentBlockStart, isValue, starts.1, starts.2.1, starts.2.2,
      StreamState.insertToolCall, idle.accumulatedToolCalls, filter_nil, Division.started]

theorem onEvent_of_isStop {event : StreamingEvent}
    (isStop : event.eventType = "content_block_stop") :
    state.onEvent host event = state.onContentBlockStop host := by
  rw [onEvent, isStop]
  rfl

/-- The lines of a block leave the state as it was. -/
theorem Section.run (idle : state.Idle) (part : Section host) :
    Consumed.lines host ⟨state, yields, .continues⟩ (part.lines.map .ok) =
      ⟨state, yields ++ part.division.yielded host state, .continues⟩ := by
  rw [part.reads.lines, cons_append, foldl_cons, foldl_append, foldl_cons,
    foldl_nil, Consumed.event_continues, onEvent_of_isStart idle part.isStart]
  obtain ⟨accumulated, toolId, finalUsage, messageId, thinking, stopReason⟩ := state
  obtain ⟨rfl, rfl, rfl⟩ := idle
  have areDeltas := part.areDeltas
  have writes := part.writesInput
  cases division : part.division with
  | text start pieces =>
    rw [division] at areDeltas
    dsimp only [Division.started]
    rw [foldl_textDeltas areDeltas, Consumed.event_continues, onEvent_of_isStop part.isStop]
    simp [onContentBlockStop, stoppedThinking, Division.yielded]
  | thinking start pieces =>
    rw [division] at areDeltas
    dsimp only [Division.started]
    rw [foldl_thinkingDeltas rfl areDeltas, Consumed.event_continues, onEvent_of_isStop part.isStop]
    simp only [append_nil]
    rfl
  | redactedThinking data =>
    rw [division] at areDeltas
    dsimp only [Division.started]
    rw [forall₂_nil_right_iff.mp areDeltas, foldl_nil, Consumed.event_continues,
      onEvent_of_isStop part.isStop]
    simp [onContentBlockStop, stoppedThinking, Division.yielded]
  | toolUse id name pieces input =>
    rw [division] at areDeltas writes
    dsimp only [Division.started]
    rw [foldl_inputDeltas rfl rfl areDeltas, Consumed.event_continues,
      onEvent_of_isStop part.isStop]
    simp [onContentBlockStop, stoppedThinking, Division.yielded,
      toolRequest_of_writesInput writes]

def Yielded.content : Yielded → List MessageContentBlock
  | .message sent => sent.content
  | .usage _ => []

def Yielded.usage? : Yielded → Option Usage
  | .message _ => none
  | .usage reported => some reported.usage

/-- The blocks of the messages that are yielded. -/
def contentsOf (yields : List Yielded) : List MessageContentBlock :=
  yields.flatMap Yielded.content

/-- The last usage that is yielded. -/
def lastUsage (yields : List Yielded) : Option Usage :=
  (yields.filterMap Yielded.usage?).getLast?

/-- Texts next to each other are one text. -/
def joinTexts : List MessageContentBlock → List MessageContentBlock
  | [] => []
  | .text first :: rest =>
    match joinTexts rest with
    | .text second :: others => .text (first ++ second) :: others
    | others => .text first :: others
  | block :: rest => block :: joinTexts rest

/-- What each block yields in the run over the lines. -/
def sectionYields (host : Host) : Consumed → List (Section host) → List (List Yielded)
  | _, [] => []
  | consumed, part :: rest =>
    let after := consumed.lines host (part.lines.map .ok)
    after.yields.drop consumed.yields.length :: sectionYields host after rest

namespace Delivery

variable (delivery : Delivery host)

/-- The run over the lines before the first block. -/
def opened : Consumed :=
  Consumed.lines host {} (delivery.opening.map .ok)

/-- The blocks of the messages, joined where consecutive texts belong to one block. -/
def joinedBlocks : List MessageContentBlock :=
  (sectionYields host delivery.opened delivery.sections).flatMap fun yields =>
    joinTexts (contentsOf yields)

/-- The stream and the whole reply give the same blocks and the same usage. -/
structure Agrees : Prop where
  blocks : ∃ message, responseToMessage host delivery.response = .ok message ∧
    delivery.joinedBlocks = message.content
  usage : lastUsage (responseToStreamingMessage host delivery.stream).1 =
    some (getUsage delivery.response)

end Delivery

theorem Consumed.lines_append (consumed : Consumed) (first second : List (Except String String)) :
    consumed.lines host (first ++ second) = (consumed.lines host first).lines host second :=
  foldl_append

/-- The blocks of a reply one after the other. -/
theorem lines_sections (idle : state.Idle) (parts : List (Section host)) (yields : List Yielded) :
    Consumed.lines host ⟨state, yields, .continues⟩ ((parts.flatMap Section.lines).map .ok) =
      ⟨state, yields ++ parts.flatMap fun part => part.division.yielded host state,
        .continues⟩ := by
  induction parts generalizing yields with
  | nil => simp [Consumed.lines]
  | cons part rest ih =>
    rw [flatMap_cons, map_append, Consumed.lines_append, part.run idle, ih,
      flatMap_cons, append_assoc]

theorem sectionYields_eq (idle : state.Idle) (parts : List (Section host))
    (yields : List Yielded) : sectionYields host ⟨state, yields, .continues⟩ parts =
      parts.map fun part => part.division.yielded host state := by
  induction parts generalizing yields with
  | nil => rfl
  | cons part rest ih =>
    rw [sectionYields, part.run idle]
    rw [drop_left, ih, map_cons]

/-- The usage that the usages of the events are merged into. -/
def mergeNext (merged : Option Usage) (usage : Value) : Option Usage :=
  some (match merged with
    | some existing => mergeDeltaUsage existing (getUsage usage) usage
    | none => getUsage usage)

/-- Between the blocks and at the end of a reply. -/
structure Resting (consumed : Consumed) (yields : List Yielded) (merged : Option Usage) :
    Prop where
  flow : consumed.flow = .continues
  yields : consumed.yields = yields
  idle : consumed.state.Idle
  usage : consumed.state.finalUsage.map ProviderUsage.usage = merged

theorem onMessageChange_of_notRefused {delta : Value}
    (notRefused : delta.str "stop_reason" ≠ some "refusal")
    (noDetails : ∀ details, delta.get "stop_details" = some details → details.isNull) :
    state.onMessageChange host delta =
      { state :=
          { state with
            stopReason := state.stopReason.orElse fun _ => delta.str "stop_reason" } } := by
  have none : (delta.get "stop_details").filter (fun details => !details.isNull) = none := by
    cases isDetails : delta.get "stop_details" with
    | none => rfl
    | some details => simp [Option.filter, noDetails details isDetails]
  simp only [StreamState.onMessageChange, none, notRefused, if_false]

theorem onEvent_of_isChange {event : StreamingEvent} {usage : Option Value}
    (change : IsChange event usage) :
    state.onEvent host event = state.onMessageDelta host event.data := by
  rw [onEvent, change.isChange]
  rfl

theorem mergeUsage_usage (data usageData : Value) : some (state.mergeUsage data usageData).usage =
      mergeNext (state.finalUsage.map ProviderUsage.usage) usageData := by
  unfold StreamState.mergeUsage
  cases state.finalUsage <;> rfl

/-- A change sets the usage and the stop reason only. -/
theorem onMessageDelta_of_isChange (host : Host) (state : StreamState)
    {event : StreamingEvent} {usage : Option Value} (change : IsChange event usage) :
    ∃ stopReason, state.onMessageDelta host event.data =
      { state :=
          { state with
            finalUsage :=
              match usage with
              | some usage => some (state.mergeUsage event.data usage)
              | none => state.finalUsage
            stopReason } } := by
  rw [StreamState.onMessageDelta, change.carries]
  cases isDelta : event.data.get "delta" with
  | none => cases usage <;> exact ⟨state.stopReason, rfl⟩
  | some delta =>
    obtain ⟨notRefused, noDetails⟩ := change.notRefused delta isDelta
    dsimp only
    rw [onMessageChange_of_notRefused notRefused noDetails]
    cases usage <;> exact ⟨_, rfl⟩

theorem Resting.change (host : Host) (resting : Resting consumed yields merged)
    {event : StreamingEvent} {usage : Option Value} (change : IsChange event usage) :
    Resting (consumed.event host event) yields (usage.toList.foldl mergeNext merged) := by
  obtain ⟨state, own, flow⟩ := consumed
  obtain ⟨flows, same, idle, isMerged⟩ := resting
  subst flows same isMerged
  obtain ⟨stopReason, changed⟩ := onMessageDelta_of_isChange host state change
  rw [Consumed.event_continues, onEvent_of_isChange change, changed]
  refine ⟨rfl, append_nil _, ⟨idle.thinking, idle.currentToolId, idle.accumulatedToolCalls⟩, ?_⟩
  cases usage with
  | none => rfl
  | some usage => exact mergeUsage_usage event.data usage

theorem Resting.foldl (host : Host) (resting : Resting consumed yields merged)
    {usages : List (Option Value)} (areChanges : Forall₂ IsChange events usages) :
    Resting (events.foldl (Consumed.event host) consumed) yields
      (usages.reduceOption.foldl mergeNext merged) := by
  induction areChanges generalizing consumed merged with
  | nil => exact resting
  | @cons event usage events usages change areChanges ih =>
    have later := ih (resting.change host change)
    cases usage <;> exact later

theorem Consumed.lines_of_stopped (stopped : consumed.flow ≠ .continues)
    (lines : List (Except String String)) : consumed.lines host lines = consumed := by
  induction lines with
  | nil => rfl
  | cons line rest ih =>
    have same : consumed.line host line = consumed := by
      obtain ⟨state, own, flow⟩ := consumed
      cases flow with
      | continues => exact absurd rfl stopped
      | breaks => rfl
      | fails error => rfl
    rw [Consumed.lines, foldl_cons, same]
    exact ih

/-- The usage after the end of the stream. -/
def endUsage (merged : Option Usage) : Option Value → Option Usage
  | some usage => some (getUsage usage)
  | none => merged

/-- The end of the stream yields nothing and sets the usage only. -/
theorem Resting.lines_of_ends (resting : Resting consumed yields merged) {usage : Option Value}
    {ending : List String} (ends : Ends host usage ending) :
    ∃ final flow, (∀ error, flow ≠ .fails error) ∧
      consumed.lines host (ending.map .ok) = ⟨final, yields, flow⟩ ∧ final.Idle ∧
      final.finalUsage.map ProviderUsage.usage = endUsage merged usage := by
  obtain ⟨state, own, flow⟩ := consumed
  obtain ⟨flows, same, idle, isMerged⟩ := resting
  subst flows same isMerged
  cases ending with
  | nil =>
    obtain rfl : usage = none := ends
    exact ⟨state, .continues, nofun, rfl, idle, rfl⟩
  | cons line rest =>
    have stops : ∃ final : StreamState,
        Consumed.line host ⟨state, own, .continues⟩ (.ok line) = ⟨final, own, .breaks⟩ ∧
        final.Idle ∧ final.finalUsage.map ProviderUsage.usage =
          endUsage (state.finalUsage.map ProviderUsage.usage) usage := by
      rcases ends with ⟨isDone, rfl⟩ | ⟨event, isEvent, isStop, carries⟩
      · exact ⟨state, by simp only [Consumed.line, isDone], idle, rfl⟩
      · have handled : state.onEvent host event = state.onMessageStop event.data := by
          rw [onEvent, isStop]
          rfl
        simp only [Consumed.line, isEvent, handled, StreamState.onMessageStop, carries]
        cases usage with
        | none => exact ⟨state, by simp only [append_nil], idle, rfl⟩
        | some usage =>
          refine ⟨_, by rw [append_nil], ?_, ?_⟩
          · exact ⟨idle.thinking, idle.currentToolId, idle.accumulatedToolCalls⟩
          · rfl
    obtain ⟨final, stops, idle, isUsage⟩ := stops
    refine ⟨final, .breaks, nofun, ?_, idle, isUsage⟩
    rw [map_cons, Consumed.lines, foldl_cons, stops]
    exact Consumed.lines_of_stopped Flow.noConfusion _

namespace Delivery

variable (delivery : Delivery host)

theorem resting_opened : ∃ state, delivery.opened = ⟨state, [], .continues⟩ ∧
    state.Idle ∧ state.finalUsage.map ProviderUsage.usage =
      (delivery.messageData.get "usage").toList.foldl mergeNext none := by
  obtain ⟨reads, isStart, isMessage⟩ := delivery.opens
  have started : ∃ state, onEvent host {} delivery.messageStart = { state } ∧
      state.Idle ∧ state.finalUsage.map ProviderUsage.usage =
        (delivery.messageData.get "usage").toList.foldl mergeNext none := by
    rw [onEvent, isStart]
    rw [StreamState.onMessageStart, isMessage]
    dsimp only
    cases delivery.messageData.get "usage" with
    | none => exact ⟨_, rfl, ⟨rfl, rfl, rfl⟩, rfl⟩
    | some usage => exact ⟨_, rfl, ⟨rfl, rfl, rfl⟩, rfl⟩
  obtain ⟨state, started, idle, isFirst⟩ := started
  refine ⟨state, ?_, idle, isFirst⟩
  rw [opened, reads.lines, foldl_cons, Consumed.event_continues, started]
  rfl

/-- The stream yields what each block yields, and then the usage. -/
theorem exists_stream : ∃ state, delivery.opened = ⟨state, [], .continues⟩ ∧ state.Idle ∧
    ∃ final : StreamState, final.Idle ∧
      final.finalUsage.map ProviderUsage.usage =
        endUsage (delivery.usages.foldl mergeNext none) delivery.stopUsage ∧
      responseToStreamingMessage host delivery.stream =
        ((delivery.sections.flatMap fun part => part.division.yielded host state) ++ final.finish,
          none) := by
  obtain ⟨state, isOpened, idle, isFirst⟩ := delivery.resting_opened
  have parts := lines_sections idle delivery.sections []
  rw [nil_append] at parts
  have resting : Resting (⟨state, delivery.sections.flatMap fun part =>
      part.division.yielded host state, .continues⟩ : Consumed) _ _ := ⟨rfl, rfl, idle, isFirst⟩
  have changed := resting.foldl host delivery.areChanges
  rw [← delivery.changesRead.lines] at changed
  obtain ⟨final, flow, notFailed, ended, finalIdle, isUsage⟩ := changed.lines_of_ends delivery.ends
  refine ⟨state, isOpened, idle, final, finalIdle, ?_, ?_⟩
  · rw [isUsage, usages]
    cases delivery.messageData.get "usage" <;> rfl
  · rw [responseToStreamingMessage, stream, lines, map_append, map_append,
      map_append, Consumed.lines_append, Consumed.lines_append, Consumed.lines_append]
    rw [opened] at isOpened
    rw [isOpened, parts, ended]
    cases flow with
    | fails error => exact absurd rfl (notFailed error)
    | breaks => rfl
    | continues => rfl

end Delivery

end Obelus.Formats.Anthropic
