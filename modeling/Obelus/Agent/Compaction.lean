import Obelus.Conversation.Message

/-!
# Messages of an agent

The messages that the agent stores and rewrites, with the audience of their
blocks, the names of tool calls, and the metadata that the steps of a turn read.
JSON that is only passed on is a value of a type `ι`.
-/

namespace Obelus.Agent

open Obelus.Conversation (Role TextContent)

variable {ι : Type}

structure ImageContent (ι : Type) where
  data : ι
  mimeType : String
  audience : Option (List Role)
  deriving DecidableEq

/-- A block of the result of a tool: its text, if it is a text, and its audience. -/
structure ContentBlock (ι : Type) where
  text : Option String
  other : Option ι := none
  audience : Option (List Role) := none
  deriving DecidableEq

structure CallToolResult (ι : Type) where
  content : List (ContentBlock ι)
  isError : Option Bool
  deriving DecidableEq

structure CallToolRequestParams (ι : Type) where
  name : String
  arguments : Option ι
  deriving DecidableEq

/-- `tool_meta`: the boolean under `goose.executable`, and the other fields. -/
structure ToolMeta (ι : Type) where
  executable : Option Bool
  fields : List (String × ι)
  deriving DecidableEq

structure ToolRequest (ι : Type) where
  id : String
  toolCall : Except String (CallToolRequestParams ι)
  metadata : Option (List (String × ι)) := none
  toolMeta : Option (ToolMeta ι) := none
  deriving DecidableEq

structure ToolResponse (ι : Type) where
  id : String
  toolResult : Except String (CallToolResult ι)
  metadata : Option (List (String × ι)) := none
  deriving DecidableEq

inductive Permission
  | alwaysAllow
  | allowOnce
  | cancel
  | denyOnce
  | alwaysDeny
  deriving DecidableEq

inductive ActionRequiredData (ι : Type)
  | toolConfirmation (id toolName : String) (arguments : Option ι) (prompt : Option String)
  | elicitation (id message : String)
  | elicitationResponse (id : String)
  | toolConfirmationResponse (id : String) (permission : Permission)
  deriving DecidableEq

inductive MessageErrorKind
  | contextLengthExceeded
  | other
  deriving DecidableEq

inductive MessageContent (ι : Type)
  | text (text : TextContent)
  | image (image : ImageContent ι)
  | toolRequest (request : ToolRequest ι)
  | toolResponse (response : ToolResponse ι)
  | toolConfirmationRequest (id toolName : String)
  | actionRequired (data : ActionRequiredData ι)
  | frontendToolRequest (id : String) (toolCall : Except String (CallToolRequestParams ι))
  | thinking (thinking signature : String)
  | redactedThinking (data : String)
  | systemNotification (msg : String)
  | error (kind : MessageErrorKind) (message : String)
  deriving DecidableEq

/-- The notes that the steps of a turn leave on a message. -/
structure OperationNotes where
  nudged : Bool := false
  attempts : Option Nat := none
  denied : Bool := false
  deriving DecidableEq

structure MessageMetadata where
  userVisible : Bool := true
  agentVisible : Bool := true
  outputTokenLimitReached : Bool := false
  steer : Bool := false
  turnContext : Bool := false
  operations : OperationNotes := {}
  deriving DecidableEq

namespace MessageMetadata

def agentOnly : MessageMetadata :=
  { userVisible := false, agentVisible := true }

def userOnly : MessageMetadata :=
  { userVisible := true, agentVisible := false }

def withAgentInvisible (metadata : MessageMetadata) : MessageMetadata :=
  { metadata with agentVisible := false }

end MessageMetadata

structure Message (ι : Type) where
  id : Option String := none
  role : Role
  created : Int
  content : List (MessageContent ι)
  metadata : MessageMetadata := {}
  deriving DecidableEq

/-- An annotation without an audience addresses everyone. -/
def addresses (audience : Option (List Role)) (role : Role) : Bool :=
  (audience.map fun roles => roles.contains role).getD true

namespace MessageContent

def isText : MessageContent ι → Bool
  | .text _ => true
  | _ => false

def asText : MessageContent ι → Option String
  | .text content => some content.text
  | _ => none

/-- A tool request or a tool response. -/
def isToolExchange : MessageContent ι → Bool
  | .toolRequest _ => true
  | .toolResponse _ => true
  | _ => false

def isToolResponse : MessageContent ι → Bool
  | .toolResponse _ => true
  | _ => false

def filterForAudience (audience : Role) : MessageContent ι → Option (MessageContent ι)
  | .text content => if addresses content.audience audience then some (.text content) else none
  | .image img => if addresses img.audience audience then some (.image img) else none
  | .toolResponse response =>
    match response.toolResult with
    | .error _ => some (.toolResponse response)
    | .ok result =>
      let content := result.content.filter fun block => addresses block.audience audience
      some (.toolResponse { response with toolResult := .ok { result with content } })
  | .thinking thought signature =>
    if audience = .assistant then some (.thinking thought signature) else none
  | .redactedThinking data => if audience = .assistant then some (.redactedThinking data) else none
  | content => some content

def userVisibleContent : MessageContent ι → Option (MessageContent ι)
  | .text content => filterForAudience .user (.text content)
  | .image img => filterForAudience .user (.image img)
  | .toolResponse response => filterForAudience .user (.toolResponse response)
  | content => some content

/-- A text, an image or a block of a tool result that is addressed to the user
and not to the agent. -/
def HasUserOnlyPart : MessageContent ι → Prop
  | .text content => addresses content.audience .assistant = false
  | .image img => addresses img.audience .assistant = false
  | .toolResponse response =>
    match response.toolResult with
    | .error _ => False
    | .ok result => ∃ block ∈ result.content, addresses block.audience .assistant = false
  | _ => False

end MessageContent

namespace Message

def isToolResponse (message : Message ι) : Bool :=
  message.content.any MessageContent.isToolResponse

def asConcatText (message : Message ι) : String :=
  "\n".intercalate (message.content.filterMap MessageContent.asText)

def agentVisibleContent (message : Message ι) : Message ι :=
  { message with
    content := message.content.filterMap (MessageContent.filterForAudience .assistant) }

/-- Texts of one audience that become neighbours are joined. -/
def joinText (content : List (MessageContent ι)) (block : MessageContent ι) :
    List (MessageContent ι) :=
  match content.getLast?, block with
  | some (.text last), .text new =>
    if last.audience = new.audience then
      content.dropLast ++ [.text { last with text := last.text ++ new.text }]
    else content ++ [.text new]
  | _, block => content ++ [block]

def userVisibleContent (message : Message ι) : Message ι :=
  { message with
    content := (message.content.filterMap MessageContent.userVisibleContent).foldl joinText [] }

end Message

inductive EffectiveRole
  | user
  | assistant
  | tool
  deriving DecidableEq

def effectiveRole (message : Message ι) : EffectiveRole :=
  match message.role with
  | .user => if message.isToolResponse then .tool else .user
  | .assistant => .assistant

/-- `Conversation::agent_visible_messages`. -/
def agentVisibleMessages (conversation : List (Message ι)) : List (Message ι) :=
  ((conversation.filter fun message => message.metadata.agentVisible).map
    Message.agentVisibleContent).filter fun message => !message.content.isEmpty

/-- `Conversation::user_visible_messages`. -/
def userVisibleMessages (conversation : List (Message ι)) : List (Message ι) :=
  ((conversation.filter fun message => message.metadata.userVisible).map
    Message.userVisibleContent).filter fun message => !message.content.isEmpty

/-- The body of the loop of `merge_consecutive`, over the messages merged so far. -/
def mergeConsecutiveMessage (merged : List (Message ι)) (message : Message ι) :
    List (Message ι) :=
  match merged.getLast? with
  | none => merged ++ [message]
  | some last =>
    if effectiveRole last = effectiveRole message ∧
        last.metadata.userVisible = message.metadata.userVisible ∧
        last.metadata.turnContext = message.metadata.turnContext then
      merged.dropLast ++ [{ last with content := last.content ++ message.content }]
    else merged ++ [message]

/-- The messages of `merge_consecutive_messages`. -/
def mergeConsecutiveMessages (messages : List (Message ι)) : List (Message ι) :=
  messages.foldl mergeConsecutiveMessage []

/-!
## Compaction

A conversation is summarized by a model.  Its messages stay for the user and are
hidden from the agent, which is given the summary, a note to go on, the prompt
that is being answered, and the context event of that turn.
-/

open Obelus.Conversation (Role)

variable {ι σ : Type}

inductive ProviderError
  | contextLengthExceeded (details : String)
  | other (text : String)

def ProviderError.text : ProviderError → String
  | contextLengthExceeded details => details
  | other text => text

/-- What compaction takes from its surroundings: the time, the normal form of
texts, the templates, the model, and the reading of a structured summary. -/
structure CompactionHost (ι σ : Type) where
  timestamp : Int
  sanitizeUnicodeTags : String → String
  argumentsText : Option ι → String
  renderCompaction : String → Except String String
  completeFast : String → Except ProviderError (Message ι)
  parseSummary : String → Option σ
  renderSummary : σ → Except String String

def hasToolResponse (message : Message ι) : Bool :=
  message.isToolResponse

/-- The indices of the removed tool responses: out from the middle, first the one
before it. -/
def indicesToRemove (toolIndices : List Nat) (numToRemove : Nat) : List Nat :=
  let middle := toolIndices.length / 2
  (List.range numToRemove).filterMap fun i =>
    let offset := i / 2
    if i % 2 = 0 then
      if offset < middle then toolIndices[middle - offset - 1]? else none
    else
      if middle + offset < toolIndices.length then toolIndices[middle + offset]? else none

def filterToolResponses (messages : List (Message ι)) (removePercent : Nat) :
    List (Message ι) :=
  if removePercent = 0 then messages
  else
    let toolIndices := messages.zipIdx.filterMap fun entry =>
      if hasToolResponse entry.1 then some entry.2 else none
    if toolIndices = [] then messages
    else
      let numToRemove := max (toolIndices.length * removePercent / 100) 1
      let removed := indicesToRemove toolIndices numToRemove
      messages.zipIdx.filterMap fun entry => if entry.2 ∈ removed then none else some entry.1

def formatContentForCompacting (host : CompactionHost ι σ) : MessageContent ι → Option String
  | .text content => some content.text
  | .image img => some s!"[image: {img.mimeType}]"
  | .toolRequest request =>
    match request.toolCall with
    | .ok call => some s!"tool_request({call.name}): {host.argumentsText call.arguments}"
    | .error _ => some "tool_request: [error]"
  | .toolResponse response =>
    match response.toolResult with
    | .ok result =>
      let textItems := result.content.filterMap ContentBlock.text
      if textItems = [] then some "tool_response: [non-text content]"
      else some ("tool_response: " ++ "\n".intercalate textItems)
    | .error _ => some "tool_response: [error]"
  | .toolConfirmationRequest _ toolName => some s!"tool_confirmation_request: {toolName}"
  | .actionRequired (.toolConfirmation _ toolName _ _) =>
    some s!"action_required(tool_confirmation): {toolName}"
  | .actionRequired (.elicitation _ message) => some s!"action_required(elicitation): {message}"
  | .actionRequired (.elicitationResponse id) =>
    some s!"action_required(elicitation_response): {id}"
  | .actionRequired (.toolConfirmationResponse id _) =>
    some s!"action_required(tool_confirmation_response): {id}"
  | .frontendToolRequest _ toolCall =>
    match toolCall with
    | .ok call => some s!"frontend_tool_request: {call.name}"
    | .error _ => some "frontend_tool_request: [error]"
  | .thinking _ _ => none
  | .redactedThinking _ => none
  | .systemNotification msg => some s!"system_notification: {msg}"
  | .error _ message => some s!"error: {message}"

def formatMessageForCompacting (host : CompactionHost ι σ) (message : Message ι) : String :=
  let contentParts := message.content.filterMap (formatContentForCompacting host)
  let role := match message.role with
    | .user => "user"
    | .assistant => "assistant"
  if contentParts = [] then s!"[{role}]: <empty message>"
  else s!"[{role}]: " ++ "\n".intercalate contentParts

/-- A summary that is not the asked document, or that is rendered as nothing, is
kept as it is. -/
def applyStructuredSummary (host : CompactionHost ι σ) (response : Message ι) : Message ι :=
  match host.parseSummary response.asConcatText with
  | none => response
  | some summary =>
    match host.renderSummary summary with
    | .ok rendered =>
      if rendered.toList.all Meetings.Validation.isWhitespace then response
      else { response with content := [.text { text := rendered, audience := none }] }
    | .error _ => response

/-- The shares of the tool responses that the attempts leave out, in percent. -/
def removalPercentages : List Nat :=
  [0, 10, 20, 50, 100]

/-- The loop of `do_compact` over the remaining attempts. -/
def attemptCompact (host : CompactionHost ι σ) (messages : List (Message ι)) :
    List Nat → Except String (Message ι)
  | [] => .error "Unexpected: exhausted all attempts without returning"
  | removePercent :: rest =>
    let filteredMessages := filterToolResponses messages removePercent
    let messagesText :=
      "\n".intercalate (filteredMessages.map (formatMessageForCompacting host))
    match host.renderCompaction messagesText with
    | .error error => .error error
    | .ok systemPrompt =>
      match host.completeFast systemPrompt with
      | .ok response => .ok (applyStructuredSummary host { response with role := .user })
      | .error (.contextLengthExceeded _) =>
        match rest with
        | [] =>
          .error
            "Failed to compact: context limit exceeded even after removing all tool responses"
        | _ => attemptCompact host messages rest
      | .error error => .error error.text

def doCompact (host : CompactionHost ι σ) (messages : List (Message ι)) :
    Except String (Message ι) :=
  let agentVisible := agentVisibleMessages (messages.filter fun message =>
    !message.metadata.turnContext)
  attemptCompact host agentVisible removalPercentages

def conversationContinuationText : String :=
  "Your context was compacted. The previous message contains a summary of the conversation so " ++
    "far.\nDo not mention that you read a summary or that conversation summarization occurred.\n" ++
    "Just continue the conversation naturally based on the summarized context."

def toolLoopContinuationText : String :=
  "Your context was compacted. The previous message contains a summary of the conversation so " ++
    "far.\nDo not mention that you read a summary or that conversation summarization occurred.\n" ++
    "Continue calling tools as necessary to complete the task."

def manualCompactContinuationText : String :=
  "Your context was compacted at the user's request. The previous message contains a summary of " ++
    "the conversation so far.\nDo not mention that you read a summary or that conversation " ++
    "summarization occurred.\nJust continue the conversation naturally based on the summarized " ++
    "context."

def hasTextOnly (message : Message ι) : Bool :=
  message.content.any MessageContent.isText && !message.content.any MessageContent.isToolExchange

/-- The message to keep, if this is a prompt: its texts for the agent. -/
def preservedFrom (message : Message ι) : Option (Message ι) :=
  if !message.metadata.agentVisible || message.metadata.turnContext || message.role ≠ .user then
    none
  else
    let projected := message.agentVisibleContent
    if !hasTextOnly projected then none
    else
      some
        { role := .user
          created := 0
          content := projected.content.filter MessageContent.isText
          metadata := .agentOnly }

/-- The last prompt, as it is kept, and the messages after it. -/
def findPreserved : List (Message ι) → Option (Message ι × List (Message ι))
  | [] => none
  | message :: rest =>
    match findPreserved rest with
    | some found => some found
    | none => (preservedFrom message).map fun preserved => (preserved, rest)

def Message.hidden (message : Message ι) : Message ι :=
  { message with metadata := message.metadata.withAgentInvisible }

/-- The context event of the turn, not older than any message in front of it. -/
def carryTurnContext (finalMessages : List (Message ι)) (turnContext : Message ι) : Message ι :=
  { turnContext with
    id := none
    created := match (finalMessages.map Message.created).max? with
      | some latest => max turnContext.created latest
      | none => turnContext.created }

/-- The conversation of `compact_messages`. -/
def compactMessages (host : CompactionHost ι σ) (conversation : List (Message ι))
    (manualCompact : Bool) : Except String (List (Message ι)) :=
  let found := if manualCompact then none else findPreserved conversation
  match doCompact host conversation with
  | .error error => .error error
  | .ok summary =>
    let continuationText :=
      if manualCompact then manualCompactContinuationText
      else
        match found with
        | some (_, after) =>
          if after.all fun message => message.metadata.turnContext then
            conversationContinuationText
          else toolLoopContinuationText
        | none => toolLoopContinuationText
    let continuation : Message ι :=
      { role := .assistant
        created := host.timestamp
        content :=
          [.text { text := host.sanitizeUnicodeTags continuationText, audience := none }]
        metadata := .agentOnly }
    let merged := mergeConsecutiveMessages
      [{ summary with metadata := .agentOnly }, continuation]
    let finalMessages := conversation.map Message.hidden ++ merged
    match found with
    | none => .ok finalMessages
    | some (preserved, after) =>
      let finalMessages := finalMessages ++ [{ preserved with created := host.timestamp }]
      match after.reverse.find? fun message =>
          message.metadata.turnContext && message.metadata.agentVisible with
      | none => .ok finalMessages
      | some turnContext => .ok (finalMessages ++ [carryTurnContext finalMessages turnContext])

end Obelus.Agent
