import Obelus.Agent.Operations

/-!
# Operations on tool calls

The user is asked about tool requests, and requests are answered by the operation
that knows the tool.  A request that no operation knows is answered with an error.
-/

namespace Obelus.Agent

open Obelus.Conversation (Role)

variable {ι : Type}

/-- The message of the first result for the request, when it asks for approval. -/
def securityMessage (results : List InspectionResult) (id : String) : Option String :=
  (results.find? fun result => result.toolRequestId = id).bind fun result =>
    match result.action with
    | .requireApproval message => message
    | _ => none

/-- The question to the user about a request. -/
def askApproval (host : MessageHost) (results : List InspectionResult)
    (request : ToolRequest ι) : Option (Message ι) :=
  match request.toolCall with
  | .ok call =>
    some (((Message.assistant host).withContent (.actionRequired
      (.toolConfirmation request.id call.name call.arguments
        (securityMessage results request.id)))).withVisibility true false)
  | .error _ => none

/-- The answers of the user that the metadata of their requests does not show
yet. -/
def confirmationEffects (messages : List (Message ι)) : List (StateEffect ι) :=
  (ApprovalState.responses messages).filterMap fun pending =>
    if pending.executable = some (permissionAllows pending.permission) then none
    else some (.patchToolRequestMeta pending.toolCallId (permissionAllows pending.permission))

/-- Denied requests are not executable, and the user is asked about the others. -/
def inspectionEffects (host : MessageHost) (results : List InspectionResult)
    (checked : PermissionCheckResult ι) : List (StateEffect ι) :=
  (checked.denied.map fun request => .patchToolRequestMeta request.id false) ++
    checked.needsApproval.flatMap fun request =>
      .patchToolRequestMeta request.id false ::
        (askApproval host results request).toList.map .appendMessage

/-- `inspect` is what the inspectors say about requests. -/
def toolApprovalOperation (host : MessageHost) (gooseMode : GooseMode)
    (inspect : List (ToolRequest ι) → List (Message ι) → Except String (List InspectionResult)) :
    Operation ι where
  name := "tool_approval"
  run conversation := do
    if gooseMode = .chat then return none
    let messages ← messagesSinceKickoff conversation
    let pending := ApprovalState.pendingRequests messages
    let inspected ←
      if pending = [] then pure []
      else do
        let results ← inspect pending conversation
        pure (inspectionEffects host results (processInspectionResults pending results))
    let effects := confirmationEffects messages ++ inspected
    return if effects = [] then none else applied effects

def declinedResponse : String :=
  "The user has declined to run this tool. DO NOT attempt to call this tool again. If there are " ++
    "no alternative methods to proceed, clearly explain the situation and STOP."

/-- The text for a call that could not be parsed. -/
def parseErrorText (error : String) : String :=
  s!"The tool call could not be parsed: {error}. Correct the arguments and try again."

/-- An answer to a request carries the metadata of the request. -/
def answerTo (request : ToolRequest ι) (result : Except String (CallToolResult ι))
    (message : Message ι) : Message ι :=
  message.addToolResponse request.id result request.metadata

/-- A response with an answer to each of the requests. -/
def answerAll {α : Type} (host : MessageHost)
    (answer : α → Message ι → Message ι) (pending : List α) : Message ι :=
  pending.foldl (fun message entry => answer entry message) (Message.user host)

def loadSkillToolName : String := "load_skill"

structure SkillSettings (ι : Type) where
  gooseMode : GooseMode
  chatModeResponse : String
  executeSkill : Option ι → CallToolResult ι
  installedSkills : String
  resolve : SlashCommand → Except String (Option String)

def skillResult (settings : SkillSettings ι) (request : ToolRequest ι) :
    ToolDisposition → CallToolResult ι
  | .execute =>
    if settings.gooseMode = .chat then .success settings.chatModeResponse
    else
      match request.toolCall with
      | .ok call => settings.executeSkill call.arguments
      | .error error => .error (parseErrorText error)
  | .decline => .error declinedResponse
  | .parseError error => .error (parseErrorText error)

/-- The pending requests for a tool. -/
def pendingFor (isTool : String → Bool) (messages : List (Message ι)) :
    List (ToolRequest ι × ToolDisposition) :=
  (pendingToolRequests messages).filter fun entry => entry.1.toolName.any isTool

def skillOperation (host : MessageHost) (settings : SkillSettings ι) : Operation ι where
  name := "skills"
  run conversation := do
    let messages ← messagesSinceKickoff conversation
    let pending := pendingFor (· = loadSkillToolName) messages
    if pending.isEmpty then return none
    return applied [.appendMessage (answerAll host
      (fun entry => answerTo entry.1 (.ok (skillResult settings entry.1 entry.2))) pending)]
  dispatched conversation :=
    if settings.gooseMode = .chat then []
    else
      match fromKickoff conversation with
      | some messages =>
        ((pendingFor (· = loadSkillToolName) messages).filter fun entry =>
          entry.2 = .execute).map fun entry => entry.1.id
      | none => []
  runCommand command conversation :=
    if command.command = "skills" then commandResponse host settings.installedSkills conversation
    else
      match settings.resolve command with
      | .ok (some prompt) => commandTurn [commandPrompt host prompt] conversation
      | .ok none => .ok none
      | .error error => commandResponse host error conversation

def finalOutputToolName : String := "recipe__final_output"

def finalOutputContinuationMessage : String :=
  "You MUST call the `final_output` tool NOW with the final output for the user."

/-- `resolve` finds the recipe of a command, `finalOutputTool` is an error for a
schema that is no schema, and `executeFinalOutput` checks an output. -/
structure RecipeSettings (ι : Type) where
  resolve : SlashCommand → Except String (Option (Recipe ι × String))
  finalOutputTool : ι → Except String Unit
  executeFinalOutput : ι → CallToolRequestParams ι → Except String (CallToolResult ι)
  outputText : Option ι → String

/-- The requests that were answered without an error. -/
def successfulResponses (messages : List (Message ι)) : List String :=
  ((messages.flatMap Message.toolResponses).filter fun response =>
    match response.toolResult with
    | .ok result => result.isError ≠ some true
    | .error _ => false).map ToolResponse.id

/-- `successful_final_output`. -/
def successfulFinalOutput (settings : RecipeSettings ι) (messages : List (Message ι)) :
    Option String :=
  (messages.flatMap Message.toolRequests).reverse.findSome? fun request =>
    if request.id ∈ successfulResponses messages then
      match request.toolCall with
      | .ok call =>
        if call.name = finalOutputToolName then some (settings.outputText call.arguments)
        else none
      | .error _ => none
    else none

/-- The first request for the final output that may be executed. -/
def pendingFinalOutput (messages : List (Message ι)) : Option (ToolRequest ι) :=
  ((pendingFor (· = finalOutputToolName) messages).find? fun entry =>
    entry.2 = .execute).map Prod.fst

def recipeOperation (host : MessageHost) (settings : RecipeSettings ι)
    (recipe : Option (Recipe ι)) : Operation ι where
  name := "recipe"
  run conversation := do
    match recipe.bind Recipe.response with
    | none => return none
    | some schema => do
      settings.finalOutputTool schema
      let messages ← messagesSinceKickoff conversation
      match pendingFinalOutput messages with
      | some request =>
        let output := match request.toolCall with
          | .ok call => settings.executeFinalOutput schema call
          | .error error => .error error
        return applied [.appendMessage (answerTo request output (Message.user host))]
      | none =>
        match successfulFinalOutput settings messages with
        | some output =>
          let role ← lastEffectiveRole messages
          return if role = .tool then
            applied [.appendMessage ((Message.assistant host).withText host output)]
          else none
        | none =>
          return if endsTurn messages then
            applied [.appendMessage
              ((Message.user host).withText host finalOutputContinuationMessage)]
          else none
  dispatched conversation :=
    match recipe.bind Recipe.response with
    | none => []
    | some _ =>
      match fromKickoff conversation with
      | some messages => (pendingFinalOutput messages).toList.map ToolRequest.id
      | none => []
  runCommand command conversation :=
    match settings.resolve command with
    | .ok (some (recipe, prompt)) =>
      match recipe.response.map settings.finalOutputTool with
      | some (.error error) =>
        commandResponse host s!"Recipe is not valid: {error}" conversation
      | _ => do
        let command ← commandMessage conversation
        return applied [hideCommand command.2, .setRecipe (some recipe),
          .appendMessage (commandPrompt host prompt)]
    | .ok none => .ok none
    | .error error => commandResponse host error conversation

/-- What arrives from the streams of running tool calls. -/
inductive ToolStreamItem (ι : Type)
  | actionRequired (elicitationId message : String)
  | result (output : Except String (CallToolResult ι))

def ToolStreamItem.isResult : ToolStreamItem ι → Bool
  | .result _ => true
  | _ => false

/-- What arrives until all calls are finished or the run is cancelled: nothing of
another call, and at most one result of each. -/
structure ToolStreams (ι : Type) where
  items : List (ToolRequest ι) → List (String × ToolStreamItem ι)
  ofRequest : ∀ requests, ∀ item ∈ items requests, ∃ request ∈ requests, request.id = item.1
  oneResult : ∀ requests id,
    ((items requests).filter fun item => item.1 = id && item.2.isResult).length ≤
      (requests.filter fun request => request.id = id).length

structure ExecutionSettings (ι : Type) where
  gooseMode : GooseMode
  chatModeResponse : String
  knownTools : List String
  streams : ToolStreams ι
  extensionData : ι
  command : SlashCommand → Option (Except String (String × List (Role × List (MessageContent ι))))

def manageExtensionsToolName : String := "extensionmanager__manage_extensions"

/-- The answer in chat mode, which calls no tool. -/
def chatModeResult (settings : ExecutionSettings ι) : ToolDisposition → CallToolResult ι
  | .parseError error => .error s!"The tool call could not be parsed: {error}."
  | _ => .success settings.chatModeResponse

/-- The answer to a request that is not executed. -/
def answerUnexecuted (message : Message ι) (entry : ToolRequest ι × ToolDisposition) :
    Message ι :=
  match entry.2 with
  | .execute => message
  | .decline => answerTo entry.1 (.ok (.error declinedResponse)) message
  | .parseError error => answerTo entry.1 (.ok (.error (parseErrorText error))) message

/-- The loop body over what arrives: the response and the effects so far. -/
def receiveItem (host : MessageHost) (requests : List (ToolRequest ι))
    (received : Message ι × List (StateEffect ι)) (item : String × ToolStreamItem ι) :
    Message ι × List (StateEffect ι) :=
  match item.2 with
  | .result output =>
    let metadata := (requests.find? fun request => request.id = item.1).bind ToolRequest.metadata
    (received.1.addToolResponse item.1 output metadata, received.2)
  | .actionRequired elicitationId message =>
    (received.1, received.2 ++ [.appendMessage ((Message.assistant host).withContent
      (.actionRequired (.elicitation elicitationId message)))])

def interruptedResponse : String :=
  "Tool call was interrupted before completing"

/-- Requests that are still unanswered are answered with an error. -/
def answerInterrupted (answered : List String) (message : Message ι)
    (request : ToolRequest ι) : Message ι :=
  if request.id ∈ answered then message
  else answerTo request (.ok (.error interruptedResponse)) message

/-- The requests of the turn for the tools of the extensions. -/
def executionPending (settings : ExecutionSettings ι) (messages : List (Message ι)) :
    List (ToolRequest ι × ToolDisposition) :=
  pendingFor (· ∈ settings.knownTools) messages

/-- The requests whose calls are made. -/
def executionDispatched (settings : ExecutionSettings ι) (messages : List (Message ι)) :
    List (ToolRequest ι) :=
  if settings.gooseMode = .chat then []
  else ((executionPending settings messages).filter fun entry =>
    entry.2 = .execute).map Prod.fst

/-- The calls of the tool that changes extensions. -/
def manageExtensionsIds (requests : List (ToolRequest ι)) : List String :=
  (requests.filter fun request =>
    request.toolName = some manageExtensionsToolName).map ToolRequest.id

/-- The effects of a run that executes requests. -/
def executionEffects (host : MessageHost) (settings : ExecutionSettings ι)
    (messages : List (Message ι)) : List (StateEffect ι) :=
  let pending := executionPending settings messages
  let requests := pending.map Prod.fst
  let items := settings.streams.items (executionDispatched settings messages)
  let declined := pending.foldl answerUnexecuted (Message.user host)
  let (response, effects) := items.foldl (receiveItem host requests) (declined, [])
  let answered := response.toolResponses.map ToolResponse.id
  let complete := requests.foldl (answerInterrupted answered) response
  let manageIds := manageExtensionsIds requests
  let changeFailed := items.any fun item =>
    match item.2 with
    | .result (.error _) => item.1 ∈ manageIds
    | _ => false
  let extensionEffects :=
    if manageIds ≠ [] ∧ !changeFailed then [.setExtensionData settings.extensionData] else []
  effects ++ extensionEffects ++ [.appendMessage complete]

def roleName : Role → String
  | .user => "User"
  | .assistant => "Assistant"

/-- The messages of a prompt alternate, beginning with the user. -/
def promptMismatch (prompts : List (Role × List (MessageContent ι))) : Option String :=
  prompts.zipIdx.findSome? fun entry =>
    let expected := if entry.2 % 2 = 0 then Role.user else Role.assistant
    if entry.1.1 = expected then none
    else some
      s!"Expected {roleName expected} message at position {entry.2}, but found {roleName entry.1.1}"

/-- `settings.command` answers the commands about prompts with a text or with the
name of a prompt and its messages. -/
def toolExecutionOperation (host : MessageHost) (settings : ExecutionSettings ι) :
    Operation ι where
  name := "tool_execution"
  run conversation := do
    let messages ← messagesSinceKickoff conversation
    let pending := executionPending settings messages
    if pending.isEmpty then return none
    if settings.gooseMode = .chat then
      return applied [.appendMessage (answerAll host
        (fun entry => answerTo entry.1 (.ok (chatModeResult settings entry.2))) pending)]
    return applied (executionEffects host settings messages)
  dispatched conversation :=
    match fromKickoff conversation with
    | some messages => (executionDispatched settings messages).map ToolRequest.id
    | none => []
  runCommand command conversation :=
    match settings.command command with
    | none => .ok none
    | some (.error text) => commandResponse host text conversation
    | some (.ok (name, prompts)) =>
      match promptMismatch prompts with
      | some text => commandResponse host text conversation
      | none =>
        if prompts.isEmpty then
          commandResponse host s!"Prompt '{name}' returned no messages" conversation
        else
          commandTurn (prompts.map fun prompt =>
            { role := prompt.1, created := host.timestamp, content := prompt.2,
              metadata := .agentOnly }) conversation

/-- The note on the answer to a request that no operation knows. -/
def unclaimedToolError : String := "goose.unclaimed_tool"

/-- `mark` is the value of the note. -/
def answerUnknown (mark : ι) (entry : ToolRequest ι × ToolDisposition)
    (message : Message ι) : Message ι :=
  match entry.2 with
  | .parseError error => answerTo entry.1 (.ok (.error (parseErrorText error))) message
  | _ =>
    match entry.1.toolCall with
    | .ok call =>
      message.addToolResponse entry.1.id
        (.ok (.error s!"Tool '{call.name}' is not available."))
        (some (((entry.1.metadata.getD []).filter fun field => field.1 ≠ unclaimedToolError) ++
          [(unclaimedToolError, mark)]))
    | .error error =>
      answerTo entry.1 (.ok (.error s!"The tool call could not be parsed: {error}.")) message

def unknownToolOperation (host : MessageHost) (mark : ι) : Operation ι where
  name := "unknown_tool"
  run conversation := do
    let messages ← messagesSinceKickoff conversation
    let pending := pendingToolRequests messages
    if pending.isEmpty then return none
    return applied [.appendMessage (answerAll host (answerUnknown mark) pending)]

end Obelus.Agent
