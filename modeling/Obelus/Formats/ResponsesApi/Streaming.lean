import Obelus.Formats.Anthropic.Streaming

/-!
# Replies of the Responses API

The content of a whole reply, and of the items at the end of a stream.
-/

namespace Obelus.Formats.ResponsesApi

structure SummaryText where
  text : String

inductive ResponseContentBlock
  | outputText (text : String)
  | refusal (refusal : String)
  | toolCall (id name : String) (input : Value)

inductive ResponseOutputItem
  | reasoning (summary : List SummaryText)
  | message (content : List ResponseContentBlock)
  | functionCall (id callId : Option String) (name arguments : String)

structure ResponsesApiResponse where
  id : String
  output : List ResponseOutputItem

inductive ContentBlockPart
  | outputText (text : String)
  | refusal (refusal : String)
  | toolCall (id name arguments : String)

inductive ResponseOutputItemInfo
  | reasoning (summary : List SummaryText)
  | message (content : List ContentBlockPart)
  | functionCall (id status callId : Option String) (name arguments : String)

/-- A loop that extends the content, up to the first error. -/
def collect {α β : Type} (content : α → Except DecodeError (List β)) :
    List α → Except DecodeError (List β)
  | [] => .ok []
  | item :: rest =>
    match content item with
    | .error error => .error error
    | .ok here =>
      match collect content rest with
      | .error error => .error error
      | .ok others => .ok (here ++ others)

def reasoningFromSummary (summary : List SummaryText) : Option MessageContentBlock :=
  let text := "\n".intercalate (summary.map SummaryText.text)
  if text.isEmpty then none else some (.thinking text "")

def textUnlessEmpty (text : String) : List MessageContentBlock :=
  if text.isEmpty then [] else [.text text]

/-- The arguments of a call, or none for a text that cannot be parsed. -/
def parsedArgs (host : Host) (arguments : String) : Value :=
  if arguments.isEmpty then .object [] else (host.fromStr arguments).getD (.object [])

def toolRequest (host : Host) (id name : String) (input : Value) :
    Except DecodeError (List MessageContentBlock) :=
  match object host input with
  | .ok arguments => .ok [.toolRequest id (.ok { name, arguments := some arguments })]
  | .error error => .error error

def functionCallRequest (host : Host) (id callId : Option String) (name arguments : String) :
    Except DecodeError (List MessageContentBlock) :=
  match callId.orElse fun _ => id with
  | none => .error (.invalid "Responses function_call output missing call_id and id")
  | some requestId => toolRequest host requestId name (parsedArgs host arguments)

def ResponseContentBlock.toContent (host : Host) :
    ResponseContentBlock → Except DecodeError (List MessageContentBlock)
  | .outputText text => .ok (textUnlessEmpty text)
  | .refusal text => .ok (textUnlessEmpty text)
  | .toolCall id name input => toolRequest host id name input

def ResponseOutputItem.toContent (host : Host) :
    ResponseOutputItem → Except DecodeError (List MessageContentBlock)
  | .reasoning summary => .ok (reasoningFromSummary summary).toList
  | .message content => collect (ResponseContentBlock.toContent host) content
  | .functionCall id callId name arguments => functionCallRequest host id callId name arguments

def responsesApiToMessage (host : Host) (response : ResponsesApiResponse) :
    Except DecodeError Message :=
  match collect (ResponseOutputItem.toContent host) response.output with
  | .error error => .error error
  | .ok content => .ok { id := some response.id, content }

def ContentBlockPart.toContent (host : Host) (isTextResponse : Bool) :
    ContentBlockPart → Except DecodeError (List MessageContentBlock)
  | .outputText text => .ok (if isTextResponse then [] else textUnlessEmpty text)
  | .refusal text => .ok (if isTextResponse then [] else textUnlessEmpty text)
  | .toolCall id name arguments => toolRequest host id name (parsedArgs host arguments)

def ResponseOutputItemInfo.toContent (host : Host) (isTextResponse : Bool) :
    ResponseOutputItemInfo → Except DecodeError (List MessageContentBlock)
  | .reasoning summary => .ok (reasoningFromSummary summary).toList
  | .message content => collect (ContentBlockPart.toContent host isTextResponse) content
  | .functionCall id _ callId name arguments => functionCallRequest host id callId name arguments

def processStreamingOutputItems (host : Host) (outputItems : List ResponseOutputItemInfo)
    (isTextResponse : Bool) : Except DecodeError (List MessageContentBlock) :=
  collect (ResponseOutputItemInfo.toContent host isTextResponse) outputItems

/-!
## Streams of the Responses API

The messages and the usage that a stream of lines yields.  Texts are yielded as they come, and
the finished items at the end.
-/

open Obelus.Formats.Anthropic (Usage ProviderUsage)

structure ResponseUsage where
  inputTokens : Nat
  outputTokens : Nat
  totalTokens : Nat
  cachedTokens : Option Nat

def ResponseUsage.toUsage (usage : ResponseUsage) : Usage :=
  (Usage.new (some usage.inputTokens) (some usage.outputTokens)
    (some usage.totalTokens)).withCacheTokens usage.cachedTokens none

/-- `incompleteReason` is the reason in the `incomplete_details`. -/
structure ResponseMetadata where
  id : String
  status : String
  model : String
  output : List ResponseOutputItemInfo := []
  usage : Option ResponseUsage := none
  incompleteReason : Option String := none

/-- The events with the fields that the loop reads. -/
inductive ResponsesStreamEvent
  | responseCreated (response : ResponseMetadata)
  | responseInProgress (response : ResponseMetadata)
  | outputItemAdded
  | contentBlockPartAdded
  | outputTextDelta (delta : String)
  | outputItemDone (item : ResponseOutputItemInfo)
  | contentBlockPartDone
  | outputTextDone
  | responseCompleted (response : ResponseMetadata)
  | responseIncomplete (response : ResponseMetadata)
  | responseFailed (error : Value)
  | functionCallArgumentsDelta
  | functionCallArgumentsDone
  | refusalDelta (delta : String)
  | refusalDone
  | error (error : Value)
  | keepalive

def isKnownResponsesStreamEventType (eventType : String) : Bool :=
  ["response.created", "response.in_progress", "response.output_item.added",
    "response.content_part.added", "response.output_text.delta", "response.output_item.done",
    "response.content_part.done", "response.output_text.done", "response.completed",
    "response.incomplete", "response.failed", "response.function_call_arguments.delta",
    "response.function_call_arguments.done", "response.refusal.delta", "response.refusal.done",
    "error", "keepalive"].contains eventType

/-- `fromValue` is the derived parser of the events. -/
structure StreamHost extends Host where
  fromValue : Value → Option ResponsesStreamEvent

inductive StreamError
  | line (message : String)
  | unparsed (dataLine : String)
  | failed (error : Value)
  | error (error : Value)
  | decode (error : DecodeError)

inductive Line
  | skipped
  | done
  | event (event : ResponsesStreamEvent)
  | fails (error : StreamError)

def parseResponsesStreamEvent (host : StreamHost) (dataLine : String) : Line :=
  match host.fromStr dataLine with
  | none => .fails (.unparsed dataLine)
  | some rawEvent =>
    match rawEvent.str "type" with
    | none => .skipped
    | some eventType =>
      if isKnownResponsesStreamEventType eventType then
        match host.fromValue rawEvent with
        | some event => .event event
        | none => .fails (.unparsed dataLine)
      else .skipped

/-- The data of a line; other fields of an event have none. -/
def dataLine (line : List Char) : Option (List Char) :=
  match stripPrefix? "data: ".toList line with
  | some data => some data
  | none =>
    match stripPrefix? "data:".toList line with
    | some data => some data
    | none => if "event:".toList.isPrefixOf line then none else some line

def readLine (host : StreamHost) (line : String) : Line :=
  if (trim line.toList).isEmpty || [':'].isPrefixOf line.toList then .skipped
  else
    match dataLine line.toList with
    | none => .skipped
    | some data =>
      if data = "[DONE]".toList then .done
      else parseResponsesStreamEvent host (String.ofList data)

structure StreamState where
  responseId : Option String := none
  modelName : Option String := none
  finalUsage : Option ProviderUsage := none
  outputItems : List ResponseOutputItemInfo := []
  isTextResponse : Bool := false
  outputTokenLimitReached : Bool := false

structure Yielded where
  message : Option Message
  usage : Option ProviderUsage := none

inductive Flow
  | continues
  | breaks
  | fails (error : StreamError)

/-- What an event does: the next state, what is yielded, and how the loop goes on. -/
structure Handled where
  state : StreamState
  yields : List Yielded := []
  flow : Flow := .continues

def responseReachedOutputTokenLimit (status : String) (incompleteReason : Option String) : Bool :=
  status == "incomplete" &&
    incompleteReason.any fun reason => ["max_output_tokens", "max_tokens"].contains reason

namespace StreamState

variable (state : StreamState)

/-- An update of the text, yielded at once. -/
def onDelta (delta : String) : Handled :=
  { state := { state with isTextResponse := true }
    yields :=
      if delta.isEmpty then []
      else [{ message := some { id := state.responseId, content := [.text delta] } }] }

/-- The usage of a response that has ended. -/
def withUsage (response : ResponseMetadata) : StreamState :=
  { state with
    finalUsage := some
      { model := state.modelName.getD response.model
        usage := (response.usage.map ResponseUsage.toUsage).getD (Usage.new none none none)
        cost := none } }

def onResponseCompleted (response : ResponseMetadata) : Handled :=
  let state := state.withUsage response
  { state :=
      if response.output.isEmpty then state
      else { state with outputItems := response.output }
    flow := .breaks }

/-- Calls that were not completed are dropped. -/
def isKept : ResponseOutputItemInfo → Bool
  | .functionCall _ status _ _ _ => status == some "completed"
  | _ => true

def onResponseIncomplete (response : ResponseMetadata) : Handled :=
  let state :=
    { state.withUsage response with
      responseId := some response.id
      outputTokenLimitReached :=
        responseReachedOutputTokenLimit response.status response.incompleteReason }
  { state :=
      if response.output.isEmpty then state
      else { state with outputItems := response.output.filter isKept }
    flow := .breaks }

def onEvent : ResponsesStreamEvent → Handled
  | .responseCreated response =>
    { state := { state with responseId := some response.id, modelName := some response.model } }
  | .responseInProgress response =>
    { state := { state with responseId := some response.id, modelName := some response.model } }
  | .outputTextDelta delta => state.onDelta delta
  | .outputItemDone item => { state := { state with outputItems := state.outputItems ++ [item] } }
  | .outputTextDone => { state }
  | .responseCompleted response => state.onResponseCompleted response
  | .responseIncomplete response => state.onResponseIncomplete response
  | .functionCallArgumentsDelta => { state }
  | .functionCallArgumentsDone => { state }
  | .refusalDelta delta => state.onDelta delta
  | .refusalDone => { state }
  | .responseFailed error => { state, flow := .fails (.failed error) }
  | .error error => { state, flow := .fails (.error error) }
  | _ => { state }

/-- What is yielded after the loop. -/
def finish (host : Host) : List Yielded × Option StreamError :=
  match processStreamingOutputItems host state.outputItems state.isTextResponse with
  | .error error => ([], some (.decode error))
  | .ok content =>
    if !content.isEmpty then
      ([{ message := some
            { id := state.responseId
              content
              outputTokenLimitReached := state.outputTokenLimitReached }
          usage := state.finalUsage }], none)
    else if state.outputTokenLimitReached then
      ([{ message := some { id := state.responseId, outputTokenLimitReached := true }
          usage := state.finalUsage }], none)
    else (state.finalUsage.toList.map fun usage => { message := none, usage := some usage }, none)

end StreamState

/-- The stream so far. -/
structure Consumed where
  state : StreamState := {}
  yields : List Yielded := []
  flow : Flow := .continues

def Consumed.event (consumed : Consumed) (event : ResponsesStreamEvent) : Consumed :=
  let handled := consumed.state.onEvent event
  { state := handled.state
    yields := consumed.yields ++ handled.yields
    flow := handled.flow }

/-- The body of the loop. -/
def Consumed.line (host : StreamHost) (consumed : Consumed) (line : Except String String) :
    Consumed :=
  match consumed.flow with
  | .continues =>
    match line with
    | .error message => { consumed with flow := .fails (.line message) }
    | .ok line =>
      match readLine host line with
      | .skipped => consumed
      | .done => { consumed with flow := .breaks }
      | .fails error => { consumed with flow := .fails error }
      | .event event => consumed.event event
  | _ => consumed

def Consumed.lines (host : StreamHost) (consumed : Consumed) (lines : List (Except String String)) :
    Consumed :=
  lines.foldl (Consumed.line host) consumed

/-- Everything that is yielded, and the error that ends the stream. -/
def responsesApiToStreamingMessage (host : StreamHost) (stream : List (Except String String)) :
    List Yielded × Option StreamError :=
  let consumed := Consumed.lines host {} stream
  match consumed.flow with
  | .fails error => (consumed.yields, some error)
  | _ =>
    let finished := consumed.state.finish host.toHost
    (consumed.yields ++ finished.1, finished.2)

/-!
## Delivered replies of the Responses API

A reply and the lines of a stream that delivers it item by item.  Each text comes in deltas or
only with its finished item.
-/

inductive PartKind
  | outputText
  | refusal

def PartKind.delta : PartKind → String → ResponsesStreamEvent
  | .outputText => .outputTextDelta
  | .refusal => .refusalDelta

/-- A text or a refusal with its deltas, or with none when only the finished item holds it. -/
structure DividedPart where
  kind : PartKind
  text : String
  deltas : List String
  divides : deltas = [] ∨ deltas.flatMap String.toList = text.toList

namespace DividedPart

def block (part : DividedPart) : ResponseContentBlock :=
  match part.kind with
  | .outputText => .outputText part.text
  | .refusal => .refusal part.text

def info (part : DividedPart) : ContentBlockPart :=
  match part.kind with
  | .outputText => .outputText part.text
  | .refusal => .refusal part.text

def events (part : DividedPart) : List ResponsesStreamEvent :=
  part.deltas.map part.kind.delta

end DividedPart

inductive DividedItem
  | reasoning (summary : List SummaryText)
  | message (parts : List DividedPart)
  | functionCall (id status callId : Option String) (name arguments : String)

namespace DividedItem

/-- The item of a whole reply. -/
def whole : DividedItem → ResponseOutputItem
  | .reasoning summary => .reasoning summary
  | .message parts => .message (parts.map DividedPart.block)
  | .functionCall id _ callId name arguments => .functionCall id callId name arguments

/-- The finished item of a stream. -/
def info : DividedItem → ResponseOutputItemInfo
  | .reasoning summary => .reasoning summary
  | .message parts => .message (parts.map DividedPart.info)
  | .functionCall id status callId name arguments => .functionCall id status callId name arguments

def parts : DividedItem → List DividedPart
  | .message parts => parts
  | _ => []

def events (item : DividedItem) : List ResponsesStreamEvent :=
  item.parts.flatMap DividedPart.events ++ [.outputItemDone item.info]

end DividedItem

/-- The loop passes over these events. -/
def ResponsesStreamEvent.isPassedOver : ResponsesStreamEvent → Bool
  | .responseCreated _ | .responseInProgress _ | .outputItemAdded | .contentBlockPartAdded
  | .contentBlockPartDone | .outputTextDone | .functionCallArgumentsDelta
  | .functionCallArgumentsDone | .refusalDone | .keepalive => true
  | _ => false

def Line.goesOn : Line → Prop
  | .skipped => True
  | .event _ => True
  | _ => False

def lineEvent (host : StreamHost) (line : String) : Option ResponsesStreamEvent :=
  match readLine host line with
  | .event event => if event.isPassedOver then none else some event
  | _ => none

/-- The lines have these events between others that are passed over. -/
def Reads (host : StreamHost) (lines : List String) (events : List ResponsesStreamEvent) : Prop :=
  (∀ line ∈ lines, (readLine host line).goesOn) ∧ lines.filterMap (lineEvent host) = events

/-- The stream ends, or a line ends it, which may hold the finished items again. -/
def Ends (host : StreamHost) (items : List DividedItem) : List String → Prop
  | [] => True
  | line :: _ =>
    readLine host line = .done ∨
      ∃ response, readLine host line = .event (.responseCompleted response) ∧
        (response.output = [] ∨ response.output = items.map DividedItem.info)

/-- A whole reply and the lines that deliver it. -/
structure Delivery (host : StreamHost) where
  response : ResponsesApiResponse
  items : List DividedItem
  lines : List String
  ending : List String
  areItems : response.output = items.map DividedItem.whole
  reads : Reads host lines (items.flatMap DividedItem.events)
  ends : Ends host items ending

def textOf (content : List MessageContentBlock) : List Char :=
  content.flatMap fun block =>
    match block with
    | .text text => text.toList
    | _ => []

def thinkingOf (content : List MessageContentBlock) : List (String × String) :=
  content.filterMap fun block =>
    match block with
    | .thinking thinking signature => some (thinking, signature)
    | _ => none

def toolRequestsOf (content : List MessageContentBlock) :
    List (String × Except ErrorData CallToolRequestParams) :=
  content.filterMap fun block =>
    match block with
    | .toolRequest id toolCall => some (id, toolCall)
    | _ => none

def contentsOf (yields : List Yielded) : List MessageContentBlock :=
  yields.flatMap fun yielded => yielded.message.toList.flatMap Message.content

namespace Delivery

variable {host : StreamHost} (delivery : Delivery host)

def streamed : List Yielded × Option StreamError :=
  responsesApiToStreamingMessage host ((delivery.lines ++ delivery.ending).map .ok)

/-- The stream yields the text, the thinking and the calls of the whole reply, or fails where the
whole reply cannot be decoded. -/
def Agrees : Prop :=
  match responsesApiToMessage host.toHost delivery.response with
  | .ok message =>
    delivery.streamed.2 = none ∧
      textOf (contentsOf delivery.streamed.1) = textOf message.content ∧
      thinkingOf (contentsOf delivery.streamed.1) = thinkingOf message.content ∧
      toolRequestsOf (contentsOf delivery.streamed.1) = toolRequestsOf message.content
  | .error error => delivery.streamed.2 = some (.decode error)

end Delivery

end Obelus.Formats.ResponsesApi
