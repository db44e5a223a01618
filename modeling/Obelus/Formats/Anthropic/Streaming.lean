import Obelus.Formats.ToolArguments

/-!
# Anthropic replies

The blocks and the usage of a whole reply.
-/

namespace Obelus.Formats.Anthropic

/-- The part of a message for one block of the content; other types have none. -/
def blockOf (host : Host) (block : Value) : Except DecodeError (List MessageContentBlock) :=
  match block.str "type" with
  | some "text" =>
    match block.str "text" with
    | some text => .ok [.text (sanitizeUnicodeTags host text)]
    | none => .ok []
  | some "tool_use" =>
    match block.str "id", block.str "name", block.get "input" with
    | none, _, _ => .error (.invalid "Missing tool_use id")
    | some _, none, _ => .error (.invalid "Missing tool_use name")
    | some _, some _, none => .error (.invalid "Missing tool_use input")
    | some id, some name, some input =>
      match object host input with
      | .ok arguments => .ok [.toolRequest id (.ok { name, arguments := some arguments })]
      | .error error => .error error
  | some "thinking" =>
    match block.str "thinking" with
    | some thinking => .ok [.thinking thinking ((block.str "signature").getD "")]
    | none => .error (.invalid "Missing thinking content")
  | some "redacted_thinking" =>
    match block.str "data" with
    | some data => .ok [.redactedThinking data]
    | none => .error (.invalid "Missing redacted_thinking data")
  | _ => .ok []

/-- The loop over the blocks. -/
def blocksOf (host : Host) : List Value → Except DecodeError (List MessageContentBlock)
  | [] => .ok []
  | block :: rest =>
    match blockOf host block with
    | .error error => .error error
    | .ok content =>
      match blocksOf host rest with
      | .error error => .error error
      | .ok others => .ok (content ++ others)

def responseToMessage (host : Host) (response : Value) : Except DecodeError Message :=
  match (response.get "content").bind Value.asArray with
  | none => .error (.invalid "Invalid response format: missing content array")
  | some contentBlocks =>
    match blocksOf host contentBlocks with
    | .error error => .error error
    | .ok content => .ok { content }

@[ext]
structure Usage where
  inputTokens : Option Nat := none
  outputTokens : Option Nat := none
  totalTokens : Option Nat := none
  cacheReadInputTokens : Option Nat := none
  cacheWriteInputTokens : Option Nat := none

def i32Max : Nat :=
  2 ^ 31 - 1

/-- `saturating_add` of numbers that are not negative. -/
def saturatingAdd (a b : Nat) : Nat :=
  min (a + b) i32Max

def Usage.new (inputTokens outputTokens totalTokens : Option Nat) : Usage where
  inputTokens := inputTokens
  outputTokens := outputTokens
  totalTokens :=
    match totalTokens with
    | some total => some total
    | none =>
      match inputTokens, outputTokens with
      | some input, some output => some (saturatingAdd input output)
      | some input, none => some input
      | none, some output => some output
      | none, none => none

def Usage.withCacheTokens (usage : Usage)
    (cacheReadInputTokens cacheWriteInputTokens : Option Nat) : Usage :=
  { usage with cacheReadInputTokens, cacheWriteInputTokens }

def Usage.fromCacheExclusiveInput (inputTokens outputTokens totalTokens cacheReadInputTokens
    cacheWriteInputTokens : Option Nat) : Usage :=
  let cacheTokens := saturatingAdd (cacheReadInputTokens.getD 0) (cacheWriteInputTokens.getD 0)
  (Usage.new (inputTokens.map fun tokens => saturatingAdd tokens cacheTokens) outputTokens
    (totalTokens.map fun tokens => saturatingAdd tokens cacheTokens)).withCacheTokens
      cacheReadInputTokens cacheWriteInputTokens

/-- A token count of a usage object. -/
def tokenField (usage : Value) (key : String) : Option Nat :=
  ((usage.get key).bind Value.asU64).map fun tokens => min tokens i32Max

def usageFromAnthropicFields (usage : Value) : Usage :=
  Usage.fromCacheExclusiveInput (some ((tokenField usage "input_tokens").getD 0))
    (some ((tokenField usage "output_tokens").getD 0)) none
    (tokenField usage "cache_read_input_tokens") (tokenField usage "cache_creation_input_tokens")

def reports (data : Value) (key : String) : Bool :=
  (data.get key).isSome

def mergeDeltaUsage (existing delta : Usage) (deltaData : Value) : Usage :=
  let output :=
    if reports deltaData "output_tokens" then delta.outputTokens else existing.outputTokens
  if !reports deltaData "input_tokens" then
    (Usage.new existing.inputTokens output none).withCacheTokens existing.cacheReadInputTokens
      existing.cacheWriteInputTokens
  else if reports deltaData "cache_read_input_tokens" ||
      reports deltaData "cache_creation_input_tokens" then
    (Usage.new delta.inputTokens output none).withCacheTokens delta.cacheReadInputTokens
      delta.cacheWriteInputTokens
  else
    Usage.fromCacheExclusiveInput delta.inputTokens output none existing.cacheReadInputTokens
      existing.cacheWriteInputTokens

/-- The usage in a value, or of a value that is a usage object itself. -/
def getUsage (data : Value) : Usage :=
  match data.get "usage" with
  | some usage => usageFromAnthropicFields usage
  | none =>
    if data.asObject.isSome then
      let usage := usageFromAnthropicFields data
      if usage.totalTokens.getD 0 > 0 then usage else Usage.new none none none
    else Usage.new none none none

structure ProviderUsage where
  model : String
  usage : Usage
  cost : Option ℚ

/-- Every number of a JSON text is finite. -/
def getCost (usage : Value) : Option ℚ :=
  ((usage.get "cost").bind Value.asF64).filter fun cost => 0 ≤ cost

def providerUsageWithCost (model : String) (usage : Usage) (data : Value)
    (fallbackCost : Option ℚ) : ProviderUsage where
  model := model
  usage := usage
  cost := (getCost data).orElse fun _ => fallbackCost

/-!
## Anthropic streams

The messages and the usage that a stream of lines yields.  The open tool calls are listed
by their ids.
-/

/-- An event and its other fields. -/
structure StreamingEvent where
  eventType : String
  data : Value

inductive ContentBlockDelta
  | textDelta (text : String)
  | inputJsonDelta (partialJson : String)
  | thinkingDelta (thinking : String)
  | signatureDelta (signature : String)

structure ThinkingState where
  text : String
  signature : String

structure StreamState where
  accumulatedToolCalls : List (String × (String × String)) := []
  currentToolId : Option String := none
  finalUsage : Option ProviderUsage := none
  messageId : Option String := none
  thinking : Option ThinkingState := none
  stopReason : Option String := none

inductive ProviderError
  | refusal (details : String) (category : Option String)

inductive StreamError
  | line (message : String)
  | provider (error : ProviderError)
  | panicked

inductive Yielded
  | message (message : Message)
  | usage (usage : ProviderUsage)

inductive Line
  | skipped
  | done
  | event (event : StreamingEvent)

/-- The parser of `StreamingEvent`: an object with a type that is a text. -/
def eventOf (value : Value) : Option StreamingEvent :=
  match value with
  | .object fields =>
    match fields.lookup "type" with
    | some (.string eventType) =>
      some ⟨eventType, .object (fields.filter fun field => field.1 ≠ "type")⟩
    | _ => none
  | _ => none

def readLine (host : Host) (line : String) : Line :=
  if (trim line.toList).isEmpty then .skipped
  else
    match stripPrefix? "data:".toList line.toList with
    | none => .skipped
    | some unspaced =>
      let dataPart := (stripPrefix? "data: ".toList line.toList).getD unspaced
      if trim dataPart = "[DONE]".toList then .done
      else
        match (host.fromStr (String.ofList dataPart)).bind eventOf with
        | some event => .event event
        | none => .skipped

/-- The parser of `ContentBlockDelta`. -/
def deltaOf (delta : Value) : Option ContentBlockDelta :=
  match delta.str "type" with
  | some "text_delta" => (delta.str "text").map .textDelta
  | some "input_json_delta" => (delta.str "partial_json").map .inputJsonDelta
  | some "thinking_delta" => (delta.str "thinking").map .thinkingDelta
  | some "signature_delta" => (delta.str "signature").map .signatureDelta
  | _ => none

inductive Flow
  | continues
  | breaks
  | fails (error : StreamError)

/-- What an event does: the next state, what is yielded, and how the loop goes on. -/
structure Handled where
  state : StreamState
  yields : List Yielded := []
  flow : Flow := .continues

namespace StreamState

variable (host : Host) (state : StreamState)

/-- A message with one block. -/
def blockMessage (block : MessageContentBlock) : Yielded :=
  .message { id := state.messageId, content := [block] }

def onMessageStart (data : Value) : Handled :=
  match data.get "message" with
  | none => { state }
  | some messageData =>
    let state := { state with messageId := (messageData.str "id").orElse fun _ => state.messageId }
    match messageData.get "usage" with
    | none => { state }
    | some usageData =>
      { state :=
          { state with
            finalUsage := some (providerUsageWithCost
              ((messageData.str "model").getD "unknown") (getUsage usageData) usageData
              none) } }

/-- `insert` of the map of tool calls. -/
def insertToolCall (id name : String) : StreamState :=
  { state with
    accumulatedToolCalls :=
      (id, (name, "")) :: state.accumulatedToolCalls.filter fun call => call.1 ≠ id }

def onContentBlockStart (data : Value) : Handled :=
  match data.get "content_block" with
  | none => { state }
  | some contentBlock =>
    match contentBlock.str "type" with
    | some "tool_use" =>
      match contentBlock.str "id" with
      | none => { state }
      | some id =>
        let state := { state with currentToolId := some id }
        match contentBlock.str "name" with
        | none => { state }
        | some name => { state := state.insertToolCall id name }
    | some "thinking" =>
      { state :=
          { state with
            thinking := some
              { text := (contentBlock.str "thinking").getD ""
                signature := (contentBlock.str "signature").getD "" } } }
    | some "redacted_thinking" =>
      match contentBlock.str "data" with
      | some data => { state, yields := [state.blockMessage (.redactedThinking data)] }
      | none => { state }
    | _ => { state }

/-- `push_str` on the arguments of the current tool call. -/
def pushArguments (partialJson : String) : StreamState :=
  match state.currentToolId with
  | none => state
  | some toolId =>
    { state with
      accumulatedToolCalls := state.accumulatedToolCalls.map fun call =>
        if call.1 = toolId then (call.1, (call.2.1, call.2.2 ++ partialJson)) else call }

def onContentBlockDelta (data : Value) : Handled :=
  match (data.get "delta").bind deltaOf with
  | some (.textDelta text) =>
    { state, yields := [state.blockMessage (.text (sanitizeUnicodeTags host text))] }
  | some (.inputJsonDelta partialJson) => { state := state.pushArguments partialJson }
  | some (.thinkingDelta text) =>
    { state :=
        { state with
          thinking := state.thinking.map fun thinking =>
            { thinking with text := thinking.text ++ text } } }
  | some (.signatureDelta signature) =>
    { state :=
        { state with
          thinking := state.thinking.map fun thinking =>
            { thinking with signature := thinking.signature ++ signature } } }
  | none => { state }

/-- The thinking that ends with its block. -/
def stoppedThinking : List Yielded :=
  match state.thinking with
  | some thinking =>
    if thinking.text.isEmpty then []
    else [state.blockMessage (.thinking thinking.text thinking.signature)]
  | none => []

/-- The request of a tool call with its arguments. -/
def toolRequest (toolId name args : String) : Except DecodeError MessageContentBlock :=
  let parsed := if args.isEmpty then some (.object []) else parseToolArguments host args
  match parsed with
  | none =>
    .ok (.toolRequest toolId (.error (invalidParams
      ((truncationErrorMessage host args).getD ("Could not parse tool arguments: " ++ args)))))
  | some parsedArgs =>
    match object host parsedArgs with
    | .ok arguments => .ok (.toolRequest toolId (.ok { name, arguments := some arguments }))
    | .error error => .error error

def onContentBlockStop : Handled :=
  let thinking := state.stoppedThinking
  let state := { state with thinking := none }
  match state.currentToolId with
  | none => { state, yields := thinking }
  | some toolId =>
    let opened := state.accumulatedToolCalls.lookup toolId
    let state :=
      { state with
        currentToolId := none
        accumulatedToolCalls := state.accumulatedToolCalls.filter fun call => call.1 ≠ toolId }
    match opened with
    | none => { state, yields := thinking }
    | some (name, args) =>
      match toolRequest host toolId name args with
      | .ok request => { state, yields := thinking ++ [state.blockMessage request] }
      | .error _ => { state, yields := thinking, flow := .fails .panicked }

/-- The usage of a `message_delta`. -/
def mergeUsage (data usageData : Value) : ProviderUsage :=
  match state.finalUsage with
  | some existing =>
    providerUsageWithCost existing.model
      (mergeDeltaUsage existing.usage (getUsage usageData) usageData) usageData existing.cost
  | none =>
    providerUsageWithCost ((data.str "model").getD "unknown") (getUsage usageData) usageData none

/-- The `delta` of a `message_delta`. -/
def onMessageChange (delta : Value) : Handled :=
  let stopDetails := (delta.get "stop_details").filter fun details => !details.isNull
  let state :=
    { state with stopReason := state.stopReason.orElse fun _ => delta.str "stop_reason" }
  if delta.str "stop_reason" = some "refusal" then
    let field (key : String) := stopDetails.bind (Value.str key)
    let details := ((field "explanation").orElse fun _ => stopDetails.map host.toJsonText).getD
      "No additional details were provided."
    { state := { state with finalUsage := none }
      yields := (state.finalUsage.map .usage).toList
      flow := .fails (.provider (.refusal details (field "category"))) }
  else
    match stopDetails with
    | some details =>
      { state
        yields := [state.blockMessage (.text (sanitizeUnicodeTags host
          ("The provider ended the response with: " ++ host.toJsonText details)))] }
    | none => { state }

def onMessageDelta (data : Value) : Handled :=
  let state :=
    match data.get "usage" with
    | some usageData => { state with finalUsage := some (state.mergeUsage data usageData) }
    | none => state
  match data.get "delta" with
  | some delta => state.onMessageChange host delta
  | none => { state }

def onMessageStop (data : Value) : Handled :=
  match data.get "usage" with
  | some usageData =>
    { state :=
        { state with
          finalUsage := some (providerUsageWithCost ((data.str "model").getD "unknown")
            (getUsage usageData) usageData (state.finalUsage.bind ProviderUsage.cost)) }
      flow := .breaks }
  | none => { state, flow := .breaks }

def onEvent (event : StreamingEvent) : Handled :=
  match event.eventType with
  | "message_start" => state.onMessageStart event.data
  | "content_block_start" => state.onContentBlockStart event.data
  | "content_block_delta" => state.onContentBlockDelta host event.data
  | "content_block_stop" => state.onContentBlockStop host
  | "message_delta" => state.onMessageDelta host event.data
  | "message_stop" => state.onMessageStop event.data
  | _ => { state }

/-- The error of a tool call that was not completed. -/
def openCall (call : String × (String × String)) : Yielded :=
  let guidance :=
    if state.stopReason = some "max_tokens" then
      "The model's response was truncated — it hit the output token limit while generating " ++
        "this tool call. Try increasing max_tokens for this provider or breaking the task into " ++
        "smaller steps."
    else
      "A tool call was not completed before the stream ended. Try resending your message or " ++
        "breaking the task into smaller steps."
  let args := call.2.2.toList
  state.blockMessage (.toolRequest call.1 (.error (invalidParams (guidance ++ "\nReceived " ++
    toString args.length ++ " characters of arguments; cut off at: …" ++
    String.ofList (tailOf 80 args)))))

/-- What is yielded after the loop. -/
def finish : List Yielded :=
  (state.accumulatedToolCalls.mergeSort fun a b => decide (a.1 ≤ b.1)).map state.openCall ++
    (if state.stopReason = some "max_tokens" then
      [.message { id := state.messageId, outputTokenLimitReached := true }]
    else []) ++
    (state.finalUsage.map .usage).toList

end StreamState

/-- The stream so far: what was yielded and, unless the loop has ended, the state. -/
structure Consumed where
  state : StreamState := {}
  yields : List Yielded := []
  flow : Flow := .continues

/-- The body of the loop. -/
def Consumed.line (host : Host) (consumed : Consumed) (line : Except String String) :
    Consumed :=
  match consumed.flow with
  | .continues =>
    match line with
    | .error message => { consumed with flow := .fails (.line message) }
    | .ok line =>
      match readLine host line with
      | .skipped => consumed
      | .done => { consumed with flow := .breaks }
      | .event event =>
        let handled := consumed.state.onEvent host event
        { state := handled.state
          yields := consumed.yields ++ handled.yields
          flow := handled.flow }
  | _ => consumed

def Consumed.lines (host : Host) (consumed : Consumed) (lines : List (Except String String)) :
    Consumed :=
  lines.foldl (Consumed.line host) consumed

/-- Everything that is yielded, and the error that ends the stream. -/
def responseToStreamingMessage (host : Host) (stream : List (Except String String)) :
    List Yielded × Option StreamError :=
  let consumed := Consumed.lines host {} stream
  match consumed.flow with
  | .fails error => (consumed.yields, some error)
  | _ => (consumed.yields ++ consumed.state.finish, none)

end Obelus.Formats.Anthropic
