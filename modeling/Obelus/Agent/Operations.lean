import Obelus.Agent.Compaction

/-!
# Operations on a conversation

The agent answers a user by a sequence of steps over the stored conversation.
Each step reads the messages since the kickoff, which is the last visible
message of the user, and gives effects on the session.
-/

namespace Obelus.Agent

variable {ι : Type}

/-! ## Building messages -/

/-- The clock, and the cleaning of texts. -/
structure MessageHost where
  timestamp : Int
  sanitizeUnicodeTags : String → String

namespace CallToolResult

def error (text : String) : CallToolResult ι where
  content := [{ text := some text }]
  isError := some true

def success (text : String) : CallToolResult ι where
  content := [{ text := some text }]
  isError := some false

end CallToolResult

namespace Message

def user (host : MessageHost) : Message ι where
  role := .user
  created := host.timestamp
  content := []

def assistant (host : MessageHost) : Message ι where
  role := .assistant
  created := host.timestamp
  content := []

def withContent (block : MessageContent ι) (message : Message ι) : Message ι :=
  { message with content := message.content ++ [block] }

def withText (host : MessageHost) (text : String) (message : Message ι) : Message ι :=
  message.withContent (.text { text := host.sanitizeUnicodeTags text, audience := none })

def withVisibility (userVisible agentVisible : Bool) (message : Message ι) : Message ι :=
  { message with metadata := { message.metadata with userVisible, agentVisible } }

def withSystemNotification (msg : String) (message : Message ι) : Message ι :=
  { message.withContent (.systemNotification msg) with metadata := .userOnly }

def withError (kind : MessageErrorKind) (text : String) (message : Message ι) : Message ι :=
  { message.withContent (.error kind text) with metadata := .userOnly }

def addToolResponse (id : String) (result : Except String (CallToolResult ι))
    (metadata : Option (List (String × ι))) (message : Message ι) : Message ι :=
  message.withContent (.toolResponse { id, toolResult := result, metadata })

/-- The first error of the message. -/
def errorKind (message : Message ι) : Option MessageErrorKind :=
  message.content.findSome? fun block =>
    match block with
    | .error kind _ => some kind
    | _ => none

def toolRequests (message : Message ι) : List (ToolRequest ι) :=
  message.content.filterMap fun block =>
    match block with
    | .toolRequest request => some request
    | _ => none

def toolResponses (message : Message ι) : List (ToolResponse ι) :=
  message.content.filterMap fun block =>
    match block with
    | .toolResponse response => some response
    | _ => none

end Message

/-! ## Reading the conversation -/

/-- A message of the user that starts a turn. -/
def isKickoff (message : Message ι) : Bool :=
  message.role = .user && message.metadata.userVisible && !message.isToolResponse

/-- The last kickoff and the messages after it. -/
def fromKickoff : List (Message ι) → Option (List (Message ι))
  | [] => none
  | message :: rest =>
    match fromKickoff rest with
    | some messages => some messages
    | none => if isKickoff message then some (message :: rest) else none

def messagesSinceKickoff (conversation : List (Message ι)) : Except String (List (Message ι)) :=
  match fromKickoff conversation with
  | some messages => .ok messages
  | none => .error "state machine conversation has no kickoff message"

def trailingError (conversation : List (Message ι)) : Option MessageErrorKind :=
  conversation.getLast?.bind Message.errorKind

def lastEffectiveRole (messages : List (Message ι)) : Except String EffectiveRole :=
  match messages.getLast? with
  | some message => .ok (effectiveRole message)
  | none => .error "cannot determine the role of an empty conversation"

/-- The body of the loop of `assistant_turn_count`, from the last message on: the
turns, and whether the message after this one is the assistant's. -/
def countTurn (counted : Nat × Bool) (message : Message ι) : Nat × Bool :=
  if message.role = .assistant then
    if counted.2 then counted else (counted.1 + 1, true)
  else (counted.1, false)

def assistantTurnCount (messages : List (Message ι)) : Nat :=
  (messages.reverse.foldl countTurn (0, false)).1

/-- The block asks for something to be done. -/
def MessageContent.isAsking : MessageContent ι → Bool
  | .toolRequest _ => true
  | .frontendToolRequest _ _ => true
  | .actionRequired _ => true
  | _ => false

def endsTurn (messages : List (Message ι)) : Bool :=
  match messages.getLast? with
  | some last =>
    last.role = .assistant && last.errorKind.isNone && !last.content.any MessageContent.isAsking
  | none => false

/-! ## Effects -/

structure RetryConfig (ι : Type) where
  maxRetries : Nat
  checks : List ι
  onFailure : Option String
  timeoutSeconds : Option Nat
  onFailureTimeoutSeconds : Option Nat
  deriving DecidableEq

/-- What the steps read of a recipe: the schema of its answer and its retries. -/
structure Recipe (ι : Type) where
  response : Option ι
  retry : Option (RetryConfig ι)
  deriving DecidableEq

inductive StateEffect (ι : Type)
  | appendMessage (message : Message ι)
  | replaceConversation (conversation : List (Message ι)) (usage : Option ι)
  | patchToolRequestMeta (toolCallId : String) (executable : Bool)
  | setMessageVisibility (messageId : String) (userVisible agentVisible : Bool)
  | setRecipe (recipe : Option (Recipe ι))
  | setExtensionData (extensionData : ι)
  | recordUsage (usage : ι)
  deriving DecidableEq

structure StepResult (ι : Type) where
  effects : List (StateEffect ι)
  yieldToClient : Bool
  deriving DecidableEq

/-- No result when the operation does not apply. -/
abbrev OperationResult (ι : Type) := Option (StepResult ι)

def applied (effects : List (StateEffect ι)) : OperationResult ι :=
  some { effects, yieldToClient := false }

def yieldedWith (effects : List (StateEffect ι)) : OperationResult ι :=
  some { effects, yieldToClient := true }

def yielded : OperationResult ι :=
  yieldedWith []

structure SlashCommand where
  command : String
  params : String

/-- An operation of a step, with the ids of the tool calls that its run makes. -/
structure Operation (ι : Type) where
  name : String
  run : List (Message ι) → Except String (OperationResult ι) := fun _ => .ok none
  dispatched : List (Message ι) → List String := fun _ => []
  runCommand : SlashCommand → List (Message ι) → Except String (OperationResult ι) :=
    fun _ _ => .ok none
  cancel : List (Message ι) → OperationResult ι → Except String (OperationResult ι) :=
    fun _ result => .ok result

/-!
## Inspection of tool requests

Inspectors judge the tool requests of a turn.  The permission inspector decides
first; each of the others can only make the decision stricter.
-/

variable {ι : Type}

inductive InspectionAction
  | allow
  | deny
  | requireApproval (message : Option String)

structure InspectionResult where
  toolRequestId : String
  action : InspectionAction
  inspectorName : String

structure PermissionCheckResult (ι : Type) where
  approved : List (ToolRequest ι) := []
  needsApproval : List (ToolRequest ι) := []
  denied : List (ToolRequest ι) := []

namespace PermissionCheckResult

/-- The request that is inserted last for the id into a map of all requests. -/
def find (result : PermissionCheckResult ι) (id : String) : Option (ToolRequest ι) :=
  (result.approved ++ result.needsApproval ++ result.denied).reverse.find? fun request =>
    request.id = id

/-- The loop body of `process_inspection_results`: the decision of the permission
inspector, or approval when there is none. -/
def addDecision (permissionResults : List InspectionResult) (result : PermissionCheckResult ι)
    (request : ToolRequest ι) : PermissionCheckResult ι :=
  match permissionResults.find? fun found => found.toolRequestId = request.id with
  | some found =>
    match found.action with
    | .allow => { result with approved := result.approved ++ [request] }
    | .deny => { result with denied := result.denied ++ [request] }
    | .requireApproval _ => { result with needsApproval := result.needsApproval ++ [request] }
  | none => { result with needsApproval := result.needsApproval ++ [request] }

/-- The loop body of `apply_inspection_results_to_permissions`, with the requests
of the result that it begins with. -/
def override (all : String → Option (ToolRequest ι)) (result : PermissionCheckResult ι)
    (found : InspectionResult) : PermissionCheckResult ι :=
  let others := fun requests : List (ToolRequest ι) =>
    requests.filter fun request => request.id ≠ found.toolRequestId
  let contains := fun requests : List (ToolRequest ι) =>
    requests.any fun request => request.id = found.toolRequestId
  match found.action with
  | .deny =>
    let denied := match all found.toolRequestId with
      | some request =>
        if contains result.denied then result.denied else result.denied ++ [request]
      | none => result.denied
    { approved := others result.approved
      needsApproval := others result.needsApproval
      denied }
  | .requireApproval _ =>
    let needsApproval := match all found.toolRequestId with
      | some request =>
        if contains result.denied || contains result.needsApproval then result.needsApproval
        else result.needsApproval ++ [request]
      | none => result.needsApproval
    { result with approved := others result.approved, needsApproval }
  | .allow => result

end PermissionCheckResult

/-- `apply_inspection_results_to_permissions`. -/
def applyInspectionResultsToPermissions (result : PermissionCheckResult ι)
    (inspectionResults : List InspectionResult) : PermissionCheckResult ι :=
  inspectionResults.foldl (PermissionCheckResult.override result.find) result

/-- `PermissionInspector::process_inspection_results`. -/
def processInspectionResults (requests : List (ToolRequest ι))
    (inspectionResults : List InspectionResult) : PermissionCheckResult ι :=
  let isPermission := fun result : InspectionResult => result.inspectorName = "permission"
  let baseline := requests.foldl
    (PermissionCheckResult.addDecision
      (inspectionResults.filter fun result => isPermission result)) {}
  applyInspectionResultsToPermissions baseline
    (inspectionResults.filter fun result => ¬isPermission result)

/-!
## Slash commands

A kickoff that is a slash command is handled by the first operation that knows
the command.  The command is hidden from the agent, and its answer is shown to the
user only.
-/

open Obelus.Conversation (trimEnd)
open Obelus.Meetings.Validation (isWhitespace)

variable {ι : Type}

/-- `str::trim_start`. -/
def trimStart (text : String) : String :=
  String.ofList (text.toList.dropWhile isWhitespace)

/-- `str::trim`. -/
def trim (text : String) : String :=
  trimEnd (trimStart text)

/-- `str::strip_prefix` with a character. -/
def stripChar (first : Char) (text : String) : Option String :=
  match text.toList with
  | [] => none
  | c :: rest => if c = first then some (String.ofList rest) else none

/-- The texts before and after the first blank. -/
def splitBlank (text : String) : Option (String × String) :=
  let characters := text.toList
  if ' ' ∈ characters then
    some (String.ofList (characters.takeWhile (· ≠ ' ')),
      String.ofList ((characters.dropWhile (· ≠ ' ')).drop 1))
  else none

def parseSlashCommand (message : String) : Option SlashCommand :=
  let trimmed := trim message
  let text :=
    if trimmed ∈ ["/compact", "Please compact this conversation", "/summarize"] then "/compact"
    else trimmed
  (stripChar '/' text).map fun command =>
    match splitBlank command with
    | some (command, params) => { command, params := trim params }
    | none => { command, params := "" }

/-- The kickoff of the turn and its id. -/
def commandMessage (conversation : List (Message ι)) : Except String (Message ι × String) := do
  let messages ← messagesSinceKickoff conversation
  match messages with
  | [] => .error "slash command conversation has no kickoff message"
  | kickoff :: _ =>
    match kickoff.id with
    | some id => .ok (kickoff, id)
    | none => .error "Persisted slash command message has no id"

/-- The command stays for the user. -/
def hideCommand (messageId : String) : StateEffect ι :=
  .setMessageVisibility messageId true false

/-- A text for the user that answers the command. -/
def commandAnswer (host : MessageHost) (text : String) : Message ι :=
  ((Message.assistant host).withText host text).withVisibility true false

/-- A prompt for the agent that the command stands for. -/
def commandPrompt (host : MessageHost) (text : String) : Message ι :=
  ((Message.user host).withText host text).withVisibility false true

/-- `command_response`, and `command_error` of the other operations. -/
def commandResponse (host : MessageHost) (text : String) (conversation : List (Message ι)) :
    Except String (OperationResult ι) := do
  let command ← commandMessage conversation
  return yieldedWith [hideCommand command.2, .appendMessage (commandAnswer host text)]

/-- The prompt that a command stands for starts the turn. -/
def commandTurn (prompts : List (Message ι)) (conversation : List (Message ι)) :
    Except String (OperationResult ι) := do
  let command ← commandMessage conversation
  return applied (hideCommand command.2 :: prompts.map .appendMessage)

/-- The handlers of a command are asked in order. -/
def firstCommandResult (command : SlashCommand) (conversation : List (Message ι)) :
    List (Operation ι) → Except String (OperationResult ι)
  | [] => .ok none
  | operation :: rest => do
    match ← operation.runCommand command conversation with
    | some result => return some result
    | none => firstCommandResult command conversation rest

def slashCommandOperation (operations : List (Operation ι)) : Operation ι where
  name := "slash_command"
  run conversation := do
    let messages ← messagesSinceKickoff conversation
    match messages with
    | [kickoff] =>
      match parseSlashCommand kickoff.asConcatText with
      | some command => firstCommandResult command conversation operations
      | none => return none
    | _ => return none

/-!
## Pending tool requests

The tool requests of a turn that nothing has answered yet, and what is to become
of them: the metadata of a request says whether it may be executed, and a request
without that metadata may.
-/

variable {ι : Type}

/-- `request_executable`. -/
def ToolRequest.executable (request : ToolRequest ι) : Option Bool :=
  request.toolMeta.bind ToolMeta.executable

def permissionAllows : Permission → Bool
  | .allowOnce => true
  | .alwaysAllow => true
  | _ => false

/-- `approval_denied`. -/
def approvalDenied : Option Permission → Bool
  | some .denyOnce => true
  | some .alwaysDeny => true
  | some .cancel => true
  | _ => false

/-! ## The blocks of a turn -/

def contents (messages : List (Message ι)) : List (MessageContent ι) :=
  messages.flatMap Message.content

def answeredIds (messages : List (Message ι)) : List String :=
  (contents messages).filterMap fun block =>
    match block with
    | .toolResponse response => some response.id
    | _ => none

/-- The ids for which the user was asked. -/
def approvalRequests (messages : List (Message ι)) : List String :=
  (contents messages).filterMap fun block =>
    match block with
    | .actionRequired (.toolConfirmation id _ _ _) => some id
    | _ => none

/-- The answers of the user, in their order. -/
def approvals (messages : List (Message ι)) : List (String × Permission) :=
  (contents messages).filterMap fun block =>
    match block with
    | .actionRequired (.toolConfirmationResponse id permission) => some (id, permission)
    | _ => none

/-- The last answer for the id. -/
def approvalOf (messages : List (Message ι)) (id : String) : Option Permission :=
  ((approvals messages).reverse.find? fun entry => entry.1 = id).map Prod.snd

/-! ## Dispositions -/

inductive ToolDisposition
  | execute
  | decline
  | parseError (error : String)
  deriving DecidableEq

/-- What is to become of an unanswered request, if anything. -/
def disposition (messages : List (Message ι)) (request : ToolRequest ι) :
    Option ToolDisposition :=
  match request.toolCall with
  | .error error => some (.parseError error)
  | .ok _ =>
    if request.executable.getD true then some .execute
    else if request.id ∈ approvalRequests messages ∧
        !approvalDenied (approvalOf messages request.id) then
      none
    else some .decline

/-- `pending_tool_requests`. -/
def pendingToolRequests (messages : List (Message ι)) :
    List (ToolRequest ι × ToolDisposition) :=
  (messages.filter fun message => message.role = .assistant).flatMap fun message =>
    message.toolRequests.filterMap fun request =>
      if request.id ∈ answeredIds messages then none
      else (disposition messages request).map fun found => (request, found)

/-- The name of the tool that a request calls, when the call could be parsed. -/
def ToolRequest.toolName (request : ToolRequest ι) : Option String :=
  match request.toolCall with
  | .ok call => some call.name
  | .error _ => none

/-! ## Approval -/

/-- A confirmed request: what the user answered, and what the metadata says. -/
structure PendingResponse where
  toolCallId : String
  permission : Permission
  executable : Option Bool

namespace ApprovalState

def toolRequests (messages : List (Message ι)) : List (ToolRequest ι) :=
  messages.flatMap Message.toolRequests

/-- `ApprovalState::responses`. -/
def responses (messages : List (Message ι)) : List PendingResponse :=
  (toolRequests messages).filterMap fun request =>
    if request.id ∈ answeredIds messages then none
    else (approvalOf messages request.id).map fun permission =>
      { toolCallId := request.id, permission, executable := request.executable }

/-- `ApprovalState::pending_requests`. -/
def pendingRequests (messages : List (Message ι)) : List (ToolRequest ι) :=
  (toolRequests messages).filter fun request =>
    !(request.id ∈ answeredIds messages || request.id ∈ approvalRequests messages ||
      (approvalOf messages request.id).isSome || request.executable = some false ||
      request.toolName.isNone)

end ApprovalState

/-!
## The operations of the agent

The operations that a step tries in order before the model is asked.  What an
operation takes from its surroundings is a parameter of it.
-/

variable {ι σ : Type}

inductive GooseMode
  | auto
  | approve
  | smartApprove
  | chat
  deriving DecidableEq

/-! ## Between the turns -/

def Message.withSteer (message : Message ι) : Message ι :=
  { message with metadata := { message.metadata with steer := true } }

/-- The queue of the user's guidance is emptied between turns of the model and
turns of the tools. -/
def steerOperation (queue : List (Message ι)) : Operation ι where
  name := "steer"
  run conversation := do
    let messages ← messagesSinceKickoff conversation
    let role ← lastEffectiveRole messages
    if ¬(endsTurn messages ∨ role = .tool) ∨ queue = [] then return none
    return applied (queue.map fun message => .appendMessage message.withSteer)

def maxTurnsMessage : String :=
  "I've reached the maximum number of actions I can do without user input. Would you like me to " ++
    "continue?"

def maxTurnsOperation (host : MessageHost) (maxTurns : Nat) : Operation ι where
  name := "max_turns"
  run conversation := do
    let messages ← messagesSinceKickoff conversation
    if assistantTurnCount messages < maxTurns then return none
    return yieldedWith
      [.appendMessage ((Message.assistant host).withText host maxTurnsMessage)]

/-- The command behind an exclamation mark. -/
def bangShellCommand (message : String) : Option String :=
  ((stripChar '!' (trimStart message)).map trimStart).filter fun command => command ≠ ""

def shellToolName : String := "shell"

/-- The id of the tool call is a new one, and `arguments` is the object that holds
the command. -/
def bangShellOperation (host : MessageHost) (callId : String) (arguments : String → ι) :
    Operation ι where
  name := "bang_shell"
  run conversation := do
    let messages ← messagesSinceKickoff conversation
    match messages with
    | [] => return none
    | kickoff :: rest =>
      match bangShellCommand kickoff.asConcatText with
      | none => return none
      | some command =>
        if rest = [] then
          let request : ToolRequest ι :=
            { id := callId
              toolCall := .ok { name := shellToolName, arguments := some (arguments command) } }
          return applied
            [.appendMessage ((Message.assistant host).withContent (.toolRequest request))]
        else
          let role ← lastEffectiveRole messages
          return if role = .tool then yielded else none

/-! ## Compaction -/

def maxContextErrorCompactions : Nat := 2

structure CompactionSettings (ι : Type) where
  managesOwnContext : Bool
  totalTokens : Option Int
  overThreshold : Nat → Bool
  usage : ι

/-- The last message with its error hidden from the agent. -/
def hideLast (conversation : List (Message ι)) : List (Message ι) :=
  match conversation.getLast? with
  | some last => conversation.dropLast ++ [last.hidden]
  | none => conversation

/-- The context errors that compaction has already hidden. -/
def hiddenContextErrors (messages : List (Message ι)) : Nat :=
  (messages.filter fun message =>
    message.errorKind = some .contextLengthExceeded && !message.metadata.agentVisible).length

/-- The context is too long, as the model said or as the token count says. -/
def compactionDue (settings : CompactionSettings ι) (conversation messages : List (Message ι)) :
    Except String Bool := do
  if trailingError conversation = some .contextLengthExceeded then
    return hiddenContextErrors messages ≤ maxContextErrorCompactions
  else
    let role ← lastEffectiveRole messages
    match settings.totalTokens with
    | some tokens => return role = .user && 0 < tokens && settings.overThreshold tokens.toNat
    | none => return false

def compactionOperation (host : MessageHost) (settings : CompactionSettings ι)
    (compaction : CompactionHost ι σ) : Operation ι where
  name := "compaction"
  run conversation := do
    if settings.managesOwnContext then return none
    let messages ← messagesSinceKickoff conversation
    if ¬(← compactionDue settings conversation messages) then return none
    let shortened :=
      if trailingError conversation = some .contextLengthExceeded then hideLast conversation
      else conversation
    match compactMessages compaction shortened false with
    | .ok compacted => return applied [.replaceConversation compacted (some settings.usage)]
    | .error _ => return yielded
  runCommand command conversation := do
    if command.command = "clear" then
      let messages ← messagesSinceKickoff conversation
      return yieldedWith (.replaceConversation [] none ::
        (messages.head?.toList.map fun kickoff =>
          .appendMessage (kickoff.withVisibility true false)) ++
        [.appendMessage (commandAnswer host "Conversation cleared")])
    else if command.command = "compact" then
      match compactMessages compaction conversation true with
      | .ok compacted =>
        return yieldedWith
          [.replaceConversation compacted (some settings.usage),
            .appendMessage (commandAnswer host "Compaction complete")]
      | .error error => commandResponse host error conversation
    else return none

def toolcallSummarizationBatchSize : Nat := 10

def toolIdsToSummarize (conversation : List (Message ι)) (cutoff protectLast : Nat) :
    List String :=
  let ids := ((conversation.filter fun message => message.metadata.agentVisible).flatMap
    Message.toolRequests).map ToolRequest.id
  if ids.length - protectLast ≤ cutoff + toolcallSummarizationBatchSize then []
  else ids.take toolcallSummarizationBatchSize

def Message.hasToolId (id : String) (message : Message ι) : Bool :=
  message.content.any fun block =>
    match block with
    | .toolRequest request => request.id = id
    | .toolResponse response => response.id = id
    | _ => false

/-- `agent_visible_tool_pair`. -/
def agentVisibleToolPair (conversation : List (Message ι)) (id : String) :
    Option (List (Message ι)) :=
  let matching := agentVisibleMessages (conversation.filter (Message.hasToolId id))
  if (matching.any fun message => message.toolRequests.any fun request => request.id = id) &&
      (matching.any fun message => message.toolResponses.any fun response => response.id = id) then
    some matching
  else none

/-- `summarize_tool_call`, with what the model answers for the id about the messages. -/
def summarizeToolCall (summarize : String → List (Message ι) → Option (List (MessageContent ι)))
    (conversation : List (Message ι)) (id : String) : Option (Message ι) := do
  let matching ← agentVisibleToolPair conversation id
  let last ← matching.getLast?
  let content ← summarize id matching
  return { role := .user, created := last.created, content, metadata := .agentOnly }

/-- The request and the response with the id, when they can be hidden together. -/
def summarizablePair (conversation : List (Message ι)) (hidden : List String) (id : String) :
    Option (List (Message ι)) :=
  let pair := conversation.filter fun message => message.id.isSome && message.hasToolId id
  if pair.length ≠ 2 ∨ (pair.any fun message => message.id.any fun id => id ∈ hidden) then none
  else
    let requestIds := (pair.flatMap Message.toolRequests).map ToolRequest.id
    let responseIds := (pair.flatMap Message.toolResponses).map ToolResponse.id
    if requestIds ⊆ responseIds ∧ responseIds ⊆ requestIds then some pair else none

/-- The loop body over the ids: the effects and the hidden messages so far. -/
def summarizePair (summarize : String → List (Message ι) → Option (List (MessageContent ι)))
    (conversation : List (Message ι)) (done : List (StateEffect ι) × List String) (id : String) :
    List (StateEffect ι) × List String :=
  match summarizablePair conversation done.2 id, summarizeToolCall summarize conversation id with
  | some pair, some summary =>
    let ids := pair.filterMap Message.id
    (done.1 ++ (pair.filterMap fun message => message.id.map fun id =>
        .setMessageVisibility id message.metadata.userVisible false) ++
        [.appendMessage summary],
      done.2 ++ ids)
  | _, _ => done

def toolPairCompactionOperation (enabled : Bool) (cutoff : Nat)
    (summarize : String → List (Message ι) → Option (List (MessageContent ι))) : Operation ι where
  name := "tool_pair_compaction"
  run conversation := do
    if !enabled then return none
    let messages ← messagesSinceKickoff conversation
    let protectedCount := (messages.flatMap Message.toolRequests).length
    let ids := toolIdsToSummarize conversation cutoff protectedCount
    let (effects, _) := ids.foldl (summarizePair summarize conversation) ([], [])
    return if effects = [] then none else applied effects

end Obelus.Agent
