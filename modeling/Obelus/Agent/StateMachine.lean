import Obelus.Agent.StoredEffects
import Obelus.Agent.ToolCallThinking
import Obelus.Agent.ToolOperations

/-!
# Operations at the end of a turn

A turn that ends may be continued towards a goal, retried from its kickoff when
the checks of its recipe fail, or kept open by a hook.  An error that remains at
the end stops the run.
-/

namespace Obelus.Agent

open Obelus.Conversation (Role)

variable {ι : Type}

/-- `checks` runs the success checks within a time, and `onFailure` the command
after a failure. -/
structure RetrySettings (ι : Type) where
  goal : Option String
  grind : Option String
  retryTimeout : Nat
  onFailureTimeout : Nat
  checks : List ι → Nat → Except String Bool
  onFailure : String → Nat → Except String Unit

def retryError (host : MessageHost) (error : String) : Message ι :=
  (Message.assistant host).withError .other s!"Retry logic encountered an error: {error}"

/-- A message of the user to the agent that does not end the turn. -/
def nudge (host : MessageHost) (text : String) : Message ι :=
  ((Message.user host).withText host text).withVisibility false true

def Message.withNudged (message : Message ι) : Message ι :=
  { message with metadata := { message.metadata with
    operations := { message.metadata.operations with nudged := true } } }

def Message.withAttempts (attempts : Nat) (message : Message ι) : Message ι :=
  { message with metadata := { message.metadata with
    operations := { message.metadata.operations with attempts := some attempts } } }

def goalWasNudged (messages : List (Message ι)) : Bool :=
  messages.any fun message => message.metadata.operations.nudged

/-- The attempts are counted on the kickoff. -/
def retryAttempts (messages : List (Message ι)) : Nat :=
  ((messages.head?.bind fun kickoff => kickoff.metadata.operations.attempts)).getD 0

/-- `reset_conversation`: the conversation up to the kickoff. -/
def resetConversation (conversation messages : List (Message ι)) : List (Message ι) :=
  conversation.take (conversation.length - messages.length + 1)

/-- The conversation that the next attempt begins with. -/
def nextAttempt (conversation messages : List (Message ι)) : List (Message ι) :=
  let reset := resetConversation conversation messages
  match reset.getLast? with
  | some kickoff => reset.dropLast ++ [kickoff.withAttempts (retryAttempts messages + 1)]
  | none => reset

def goalNudge (goal : String) : String :=
  "Before finishing, check whether the following goal has been fully met:\n\n" ++
    s!"**Goal:** {goal}\n\nIf not, continue working toward it."

def grindNudge (grind : String) : String :=
  s!"Keep working. The grind goal is not yet complete:\n\n**Goal:** {grind}\n\n" ++
    "Continue until it is fully done."

/-- The part of a run after the goals, for a recipe with retries. -/
def retryRecipe (host : MessageHost) (settings : RetrySettings ι) (config : RetryConfig ι)
    (conversation messages : List (Message ι)) : OperationResult ι :=
  let failed := fun error => applied [.appendMessage (retryError host error)]
  match settings.checks config.checks (config.timeoutSeconds.getD settings.retryTimeout) with
  | .error error => failed error
  | .ok true => none
  | .ok false =>
    if config.maxRetries ≤ retryAttempts messages then
      applied [.appendMessage ((Message.assistant host).withError .other
        (s!"Maximum retry attempts ({config.maxRetries}) exceeded. Unable to complete the task " ++
          "successfully."))]
    else
      let cleaned := match config.onFailure with
        | some command => settings.onFailure command
            (config.onFailureTimeoutSeconds.getD settings.onFailureTimeout)
        | none => .ok ()
      match cleaned with
      | .error error => failed error
      | .ok () => applied [.replaceConversation (nextAttempt conversation messages) none]

/-- The answer to a command about a goal, and the prompt that starts its turn. -/
def goalCommand (host : MessageHost) (label : String) (current : Option String)
    (setText clearedText : String) (command : SlashCommand)
    (conversation : List (Message ι)) : Except String (OperationResult ι) := do
  let kickoff ← commandMessage conversation
  let params := command.params
  let answer := fun text => [hideCommand kickoff.2, .appendMessage (commandAnswer host text)]
  if params = "" then
    return yieldedWith (answer (match current with
      | some value => s!"Current {label}: {value}"
      | none => s!"No {label} set. Use `/{command.command} <description>` to set one."))
  else if params ∈ ["off", "clear", "none"] then return yieldedWith (answer clearedText)
  else
    return applied (answer (setText ++ s!"\n\n> {params}") ++ [.appendMessage (commandPrompt host
      s!"Start working toward this goal now:\n\n**Goal:** {params}")])

def retryOperation (host : MessageHost) (settings : RetrySettings ι)
    (recipe : Option (Recipe ι)) : Operation ι where
  name := "retry"
  run conversation := do
    let messages ← messagesSinceKickoff conversation
    if !endsTurn messages then return none
    match settings.goal, goalWasNudged messages, settings.grind with
    | some goal, false, _ =>
      return applied [.appendMessage (nudge host (goalNudge goal)).withNudged]
    | _, _, some grind => return applied [.appendMessage (nudge host (grindNudge grind))]
    | _, _, none =>
      match recipe.bind Recipe.retry with
      | some config => return retryRecipe host settings config conversation messages
      | none => return none
  runCommand command conversation :=
    if command.command = "goal" then
      goalCommand host "goal" settings.goal
        "Goal set. The agent will verify this goal is met before finishing:"
        "Goal cleared. The agent will finish normally." command conversation
    else if command.command = "grind" then
      goalCommand host "grind goal" settings.grind
        "Grind goal set. The agent will keep working until max_turns is reached:"
        "Grind cleared. The agent will finish normally." command conversation
    else .ok none

inductive HookDecision
  | allow
  | deny (reason plugin : String)

def Message.withDenied (message : Message ι) : Message ι :=
  { message with metadata := { message.metadata with
    operations := { message.metadata.operations with denied := true } } }

def denialContextMessage (host : MessageHost) (plugin reason : String) : Message ι :=
  nudge host (s!"Stop hook `{plugin}` blocked ending this turn:\n\n{reason}\n\n" ++
    "Address this policy hook denial before trying to stop again.")

def blockCapWarning (host : MessageHost) (plugin : String) (cap : Nat) : Message ι :=
  (Message.assistant host).withSystemNotification
    (s!"Stop hook `{plugin}` blocked the turn from ending more than {cap} consecutive times " ++
      "— overriding and ending turn to avoid an infinite loop. Set GOOSE_STOP_HOOK_BLOCK_CAP to " ++
      "raise this limit.")

/-- The denials of this turn. -/
def stopDenials (messages : List (Message ι)) : Nat :=
  (messages.filter fun message => message.metadata.operations.denied).length

def stopHookOperation (host : MessageHost) (decision : HookDecision) (blockCap : Nat) :
    Operation ι where
  name := "stop_hook"
  run conversation := do
    let messages ← messagesSinceKickoff conversation
    if !endsTurn messages then return none
    match decision with
    | .allow => return yielded
    | .deny reason plugin =>
      return if blockCap < stopDenials messages + 1 then
        yieldedWith [.appendMessage (blockCapWarning host plugin blockCap)]
      else applied [.appendMessage (denialContextMessage host plugin reason).withDenied]

def exitOnErrorOperation : Operation ι where
  name := "exit_on_error"
  run conversation := return if (trailingError conversation).isNone then none else yielded

/-- `report` is the role and the text of the diagnostics, or their failure. -/
def doctorOperation (host : MessageHost) (report : Except String (Role × String)) :
    Operation ι where
  name := "doctor"
  runCommand command conversation :=
    if command.command ≠ "doctor" then .ok none
    else
      match report with
      | .ok (.user, text) => commandTurn [commandPrompt host text] conversation
      | .ok (.assistant, text) => commandResponse host text conversation
      | .error text => commandResponse host text conversation

/-- The instructions of a project are parts of prompts only. -/
def projectOperation : Operation ι where
  name := "project"

/-!
## Inference

The last operation of a step asks the model and collects the chunks of its reply.  When the run
is cancelled it closes the open tool calls.
-/

open Obelus.Meetings.Validation (isWhitespace)

variable {ι : Type}

def responseIds (messages : List (Message ι)) : List String :=
  (messages.flatMap Message.toolResponses).map ToolResponse.id

/-- The block is no request that an earlier turn left unanswered. -/
def isAnswered (answered : List String) : MessageContent ι → Bool
  | .toolRequest request => request.id ∈ answered
  | _ => true

def messagesForProvider (conversation turn : List (Message ι)) : List (Message ι) :=
  let answered := responseIds conversation
  let start := conversation.length - turn.length
  let visible := conversation.zipIdx.filter fun entry => entry.1.metadata.agentVisible
  (visible.map fun entry =>
    let message := entry.1.agentVisibleContent
    if entry.2 < start then
      { message with content := message.content.filter (isAnswered answered) }
    else message).filter fun message => !message.content.isEmpty

def endsWithProviderTurn (messages : List (Message ι)) : Bool :=
  messages.getLast?.any fun message => effectiveRole message ∈ [.user, .tool]

/-- The answer to an unknown tool lists the available ones. -/
def listAvailableTools (availableTools : String) : MessageContent ι → MessageContent ι
  | .toolResponse response =>
    match response.metadata with
    | none => .toolResponse response
    | some fields =>
      let kept := some (fields.filter fun field => field.1 ≠ unclaimedToolError)
      if fields.all fun field => field.1 ≠ unclaimedToolError then .toolResponse response
      else
        match response.toolResult with
        | .error _ => .toolResponse { response with metadata := kept }
        | .ok result =>
          .toolResponse
            { response with
              metadata := kept
              toolResult := .ok
                { result with
                  content := result.content ++
                    [{ text := some s!"Available tools: [{availableTools}]." }] } }
  | block => block

/-- A change of the last message with a property, if there is one. -/
def updateLast (property : Message ι → Bool) (change : Message ι → Message ι) :
    List (Message ι) → Option (List (Message ι))
  | [] => none
  | message :: rest =>
    match updateLast property change rest with
    | some changed => some (message :: changed)
    | none => if property message then some (change message :: rest) else none

def Message.reachingLimit (reached : Bool) (message : Message ι) : Message ι :=
  { message with
    metadata :=
      { message.metadata with
        outputTokenLimitReached := message.metadata.outputTokenLimitReached || reached } }

/-- The content of a message that is continued. -/
def mergeContent (content new : List (MessageContent ι)) : List (MessageContent ι) :=
  match content.getLast?, new with
  | some (.text last), [.text next] =>
    if last.audience = next.audience then
      content.dropLast ++ [.text { last with text := last.text ++ next.text }]
    else content ++ new
  | some (.thinking last signature), [.thinking next newSignature] =>
    if signature = "" ∨ newSignature = signature then
      content.dropLast ++
        [.thinking (last ++ next) (if newSignature = "" then signature else newSignature)]
    else content ++ new
  | _, _ => content ++ new

/-- `Conversation::push`; `named` tells that the message names the model that replied. -/
def pushMessage (named : Bool) (conversation : List (Message ι)) (message : Message ι) :
    List (Message ι) :=
  let limit := message.metadata.outputTokenLimitReached
  if message.content.isEmpty && (named || limit) then
    let isExisting := fun existing : Message ι =>
      existing.role = message.role && existing.metadata.userVisible &&
        (!limit || (message.id.isSome && existing.id = message.id))
    match updateLast isExisting (Message.reachingLimit limit) conversation with
    | some updated => updated
    | none =>
      if limit then conversation ++ [message.withVisibility true false] else conversation
  else
    match conversation.getLast? with
    | some last =>
      if last.id.isSome && last.id = message.id then
        conversation.dropLast ++
          [{ last.reachingLimit limit with content := mergeContent last.content message.content }]
      else conversation ++ [message]
    | none => [message]

/-- A chunk of the reply, and the usage that comes with it. -/
structure StreamChunk (ι : Type) where
  message : Option (Message ι)
  usage : Option ι

/-- What the inference takes from its surroundings.  `stream` is what arrives of a reply to the
messages until it ends or the run is cancelled, and `turnContextEvent` the text of the context
event of a turn. -/
structure InferenceSettings (ι : Type) where
  availableTools : String
  turnContextEvent : List (Message ι) → Option String
  stream : List (Message ι) → Except ProviderError (List (Except ProviderError (StreamChunk ι)))
  resolvesModel : Bool
  errorText : ProviderError → String
  estimateUsage : List (Message ι) → Message ι → Except String ι
  status : String

def providerErrorMessage (host : MessageHost) (settings : InferenceSettings ι)
    (error : ProviderError) : Message ι :=
  let kind := match error with
    | .contextLengthExceeded _ => MessageErrorKind.contextLengthExceeded
    | .other _ => MessageErrorKind.other
  (Message.assistant host).withError kind (settings.errorText error)

/-- The reply so far: its messages, the ids of its tool requests, and the effects besides it. -/
structure Reply (ι : Type) where
  accumulator : List (Message ι) := []
  toolRequestIds : List String := []
  effects : List (StateEffect ι) := []

/-- A request is dropped when its id came before. -/
def retainNewRequests (seen : List String) :
    List (MessageContent ι) → List (MessageContent ι) × List String
  | [] => ([], seen)
  | .toolRequest request :: rest =>
    if request.id ∈ seen then retainNewRequests seen rest
    else
      let retained := retainNewRequests (request.id :: seen) rest
      (.toolRequest request :: retained.1, retained.2)
  | block :: rest =>
    let retained := retainNewRequests seen rest
    (block :: retained.1, retained.2)

/-- The body of the loop over the chunks. -/
def Reply.receive (settings : InferenceSettings ι) (reply : Reply ι) (chunk : StreamChunk ι) :
    Reply ι :=
  let effects := reply.effects ++ chunk.usage.toList.map .recordUsage
  match chunk.message with
  | none => { reply with effects }
  | some message =>
    let retained := retainNewRequests reply.toolRequestIds message.content
    let normalized :=
      normalizeToolCallThinking reply.accumulator { message with content := retained.1 }
    { accumulator :=
        pushMessage (settings.resolvesModel && message.role = .assistant) normalized.1
          normalized.2
      toolRequestIds := retained.2
      effects }

/-- The loop over the chunks, up to an error. -/
def Reply.receiveAll (settings : InferenceSettings ι) (reply : Reply ι) :
    List (Except ProviderError (StreamChunk ι)) → Reply ι × Option ProviderError
  | [] => (reply, none)
  | .error error :: _ => (reply, some error)
  | .ok chunk :: rest => (reply.receive settings chunk).receiveAll settings rest

def isBlankText (text : String) : Bool :=
  text.toList.all isWhitespace

def MessageContent.isBlank : MessageContent ι → Bool
  | .text content => isBlankText content.text
  | .thinking thought _ => isBlankText thought
  | _ => false

def isEmptyResponse (accumulator : List (Message ι)) : Bool :=
  (!accumulator.any fun message => message.metadata.outputTokenLimitReached) &&
    accumulator.all fun message => message.content.all MessageContent.isBlank

def emptyResponseMessage : String :=
  "The model returned an empty response. Please resend your message to continue."

def StateEffect.isRecordUsage : StateEffect ι → Bool
  | .recordUsage _ => true
  | _ => false

/-- The usage of a reply that came without one. -/
def missingUsage (settings : InferenceSettings ι) (messages : List (Message ι))
    (reply : Reply ι) : Except String (List (StateEffect ι)) :=
  if reply.effects.any StateEffect.isRecordUsage then .ok []
  else
    match reply.accumulator.getLast? with
    | none => .ok []
    | some response => do
      let usage ← settings.estimateUsage messages response
      return [.recordUsage usage]

/-- The context event of the turn, when its text changed. -/
def changedTurnContext (host : MessageHost) (settings : InferenceSettings ι)
    (turn : List (Message ι)) : Option (Message ι) :=
  let last := (turn.reverse.find? fun message => message.metadata.turnContext).map
    Message.asConcatText
  ((settings.turnContextEvent turn).map fun text =>
    { (Message.user host).withText host text with
      metadata := { MessageMetadata.agentOnly with turnContext := true } }).filter
    fun event => some event.asConcatText ≠ last

/-- The reply of the model to the messages, after the effects so far. -/
def collectReply (host : MessageHost) (settings : InferenceSettings ι)
    (messages : List (Message ι)) (effects : List (StateEffect ι)) :
    Except String (OperationResult ι) :=
  match settings.stream messages with
  | .error error =>
    .ok (applied (effects ++ [.appendMessage (providerErrorMessage host settings error)]))
  | .ok chunks =>
    match Reply.receiveAll settings { effects } chunks with
    | (reply, some error) =>
      .ok (applied (reply.effects ++ reply.accumulator.map .appendMessage ++
        [.appendMessage (providerErrorMessage host settings error)]))
    | (reply, none) =>
      if isEmptyResponse reply.accumulator then
        .ok (yieldedWith (reply.effects ++
          [.appendMessage ((Message.assistant host).withText host emptyResponseMessage)]))
      else do
        let missing ← missingUsage settings messages reply
        return applied (reply.effects ++ missing ++ reply.accumulator.map .appendMessage)

/-- `infer`. -/
def infer (host : MessageHost) (settings : InferenceSettings ι)
    (conversation : List (Message ι)) : Except String (OperationResult ι) := do
  let turn ← messagesSinceKickoff conversation
  let messages := messagesForProvider conversation turn
  if (trailingError conversation).isSome || !endsWithProviderTurn messages then return none
  let listed := messages.map fun message =>
    { message with
      content := message.content.map (listAvailableTools settings.availableTools) }
  let event := changedTurnContext host settings turn
  collectReply host settings (listed ++ event.toList) (event.toList.map .appendMessage)

def cancelledToolResponse : String :=
  "Tool call was cancelled before execution"

/-- The first request with each id. -/
def firstRequests (seen : List String) : List (ToolRequest ι) → List (ToolRequest ι)
  | [] => []
  | request :: rest =>
    if request.id ∈ seen then firstRequests seen rest
    else request :: firstRequests (request.id :: seen) rest

def StateEffect.appended : StateEffect ι → Option (Message ι)
  | .appendMessage message => some message
  | _ => none

/-- The messages that a result appends. -/
def appendedMessages (result : OperationResult ι) : List (Message ι) :=
  (result.map fun step => step.effects.filterMap StateEffect.appended).getD []

/-- A response that says of each of the requests that it was cancelled. -/
def cancelledResponse (host : MessageHost) (unanswered : List (ToolRequest ι)) : Message ι :=
  answerAll host (fun request => answerTo request (.ok (.error cancelledToolResponse))) unanswered

/-- `InferenceRunner::cancel`. -/
def cancelInference (host : MessageHost) (conversation : List (Message ι))
    (result : OperationResult ι) : Except String (OperationResult ι) := do
  let turn ← messagesSinceKickoff conversation
  let collected := turn ++ appendedMessages result
  let answered := responseIds conversation ++ responseIds collected
  let unanswered := (firstRequests [] (collected.flatMap Message.toolRequests)).filter
    fun request => request.id ∉ answered
  if unanswered.isEmpty then return result
  let response := cancelledResponse host unanswered
  match result with
  | none => return applied [.appendMessage response]
  | some step => return some { step with effects := step.effects ++ [.appendMessage response] }

/-- `InferenceRunner`, with the text of its answer to the status command. -/
def inferenceOperation (host : MessageHost) (settings : InferenceSettings ι) : Operation ι where
  name := "llm"
  run := infer host settings
  runCommand command conversation :=
    if command.command = "status" then commandResponse host settings.status conversation
    else .ok none
  cancel := cancelInference host

/-!
## The state machine of the agent

A step tries the operations in order, and inference last.  The first result that applies is the
result of the step.  A cancelled step runs no more operations, and each operation is told.
-/

variable {ι σ : Type}

/-- The result of a step, and how many operations it tried. -/
structure Stepped (ι : Type) where
  result : OperationResult ι
  tried : Nat
  deriving DecidableEq

/-- The times of a step: operation `k` begins at `2 * k` and is followed by the next reading of
the token at `2 * k + 1`.  The token is set at the time `setAt`. -/
def isCancelled (setAt time : Nat) : Bool :=
  setAt ≤ time

/-- One round of the loop: the result of an operation, which is told of a cancellation. -/
def tryOperation (setAt index : Nat) (operation : Operation ι) (conversation : List (Message ι)) :
    Except String (OperationResult ι) := do
  let result ←
    if isCancelled setAt (2 * index) then .ok none else operation.run conversation
  if isCancelled setAt (2 * index + 1) then operation.cancel conversation result else .ok result

/-- The loop over the operations. -/
def stepFrom (setAt : Nat) (conversation : List (Message ι)) :
    Nat → List (Operation ι) → Except String (Stepped ι)
  | index, [] => .ok { result := none, tried := index }
  | index, operation :: rest => do
    match ← tryOperation setAt index operation conversation with
    | none => stepFrom setAt conversation (index + 1) rest
    | some result =>
      let yields := result.yieldToClient || isCancelled setAt (2 * index + 1)
      return { result := some { result with yieldToClient := yields }, tried := index + 1 }

/-- `StateMachine::step`; the hooks need a kickoff. -/
def step (operations : List (Operation ι)) (setAt : Nat) (conversation : List (Message ι)) :
    Except String (Stepped ι) := do
  let _ ← messagesSinceKickoff conversation
  stepFrom setAt conversation 0 operations

/-- What the operations take from their surroundings. -/
structure AgentSettings (ι σ : Type) where
  host : MessageHost
  steerQueue : List (Message ι)
  maxTurns : Nat
  bangCallId : String
  bangArguments : String → ι
  compactionSettings : CompactionSettings ι
  compaction : CompactionHost ι σ
  toolPairCompactionEnabled : Bool
  toolCallCutoff : Nat
  summarize : String → List (Message ι) → Option (List (MessageContent ι))
  gooseMode : GooseMode
  inspect : List (ToolRequest ι) → List (Message ι) → Except String (List InspectionResult)
  report : Except String (Obelus.Conversation.Role × String)
  skills : SkillSettings ι
  recipes : RecipeSettings ι
  execution : ExecutionSettings ι
  unclaimedMark : ι
  retry : RetrySettings ι
  stopDecision : HookDecision
  stopHookBlockCap : Nat
  inference : InferenceSettings ι

namespace AgentSettings

variable (settings : AgentSettings ι σ) (recipe : Option (Recipe ι))

/-- The operations between the commands and inference. -/
def turnOperations : List (Operation ι) :=
  [ steerOperation settings.steerQueue,
    maxTurnsOperation settings.host settings.maxTurns,
    bangShellOperation settings.host settings.bangCallId settings.bangArguments,
    compactionOperation settings.host settings.compactionSettings settings.compaction,
    toolPairCompactionOperation settings.toolPairCompactionEnabled settings.toolCallCutoff
      settings.summarize,
    toolApprovalOperation settings.host settings.gooseMode settings.inspect,
    doctorOperation settings.host settings.report,
    projectOperation,
    skillOperation settings.host settings.skills,
    recipeOperation settings.host settings.recipes recipe,
    toolExecutionOperation settings.host settings.execution,
    unknownToolOperation settings.host settings.unclaimedMark,
    retryOperation settings.host settings.retry recipe,
    stopHookOperation settings.host settings.stopDecision settings.stopHookBlockCap,
    exitOnErrorOperation ]

def inferenceStep : Operation ι :=
  inferenceOperation settings.host settings.inference

/-- Everything before inference. -/
def operations : List (Operation ι) :=
  slashCommandOperation (settings.turnOperations recipe ++ [settings.inferenceStep]) ::
    settings.turnOperations recipe

/-- The steps that the agent builds its machine of. -/
def steps : List (Operation ι) :=
  settings.operations recipe ++ [settings.inferenceStep]

/-- Inference alone does something about a cancellation. -/
theorem cancel_of_mem_operations {operation : Operation ι}
    (isIn : operation ∈ settings.operations recipe) (conversation : List (Message ι))
    (result : OperationResult ι) : operation.cancel conversation result = .ok result := by
  have all : ∀ other ∈ settings.operations recipe, other.cancel = fun _ result => .ok result := by
    simp only [operations, turnOperations, List.forall_mem_cons, List.not_mem_nil,
      false_imp_iff, implies_true, and_true]
    exact ⟨rfl, rfl, rfl, rfl, rfl, rfl, rfl, rfl, rfl, rfl, rfl, rfl, rfl, rfl, rfl, rfl⟩
  rw [all operation isIn]

end AgentSettings

end Obelus.Agent
