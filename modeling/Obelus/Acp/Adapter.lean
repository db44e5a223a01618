import Obelus.Conversation.Message
import Obelus.Data.JsMap

/-!
# Messages of a chat session

The messages that the desktop shows, and the notifications that change them.  JSON
that is only passed on is a value of a type `ι`.  An update carries what is read of
its metadata.
-/

namespace Obelus.Acp

open Obelus.Conversation (Role)

variable {ι : Type}

inductive ElicitationStatus
  | submitted
  | cancelled
  deriving DecidableEq

inductive ToolCallStatus
  | pending
  | inProgress
  | completed
  | failed
  deriving DecidableEq

/-- The state of a tool call, merged from its updates. -/
structure ToolCallState (ι : Type) where
  title : Option String := none
  status : Option ToolCallStatus := none
  kind : Option String := none
  locations : Option ι := none
  rawInput : Option ι := none
  rawOutput : Option ι := none
  content : Option (List ι) := none

structure ToolMetadata (ι : Type) where
  title : Option String := none
  status : Option ToolCallStatus := none
  extensionName : Option String := none
  kind : Option String := none
  locations : Option ι := none
  rawOutput : Option ι := none
  content : Option (List ι) := none
  deriving DecidableEq

structure ToolResultValue (ι : Type) where
  content : List ι
  structuredContent : Option ι
  mcpApp : Option ι
  deriving DecidableEq

inductive MessageContent (ι : Type)
  | text (text : String) (extra : Option ι)
  | image (data mimeType : String) (extra : Option ι)
  | thinking (thinking signature : String)
  | toolRequest (id name : String) (arguments : Option ι) (metadata : ToolMetadata ι)
      (extra : Option ι)
  | toolResponse (id : String) (result : Except String (ToolResultValue ι))
      (metadata : ToolMetadata ι)
  | toolConfirmation (id toolName : String) (arguments : Option ι) (prompt : Option String)
  | elicitation (id message : String) (requestedSchema : ι) (status : Option ElicitationStatus)
  | systemNotification (notificationType msg : String) (data : Option ι)
  | other (content : ι)
  deriving DecidableEq

structure MessageMetadata (ι : Type) where
  userVisible : Bool := true
  agentVisible : Bool := true
  steer : Bool := false
  outputTokenLimitReached : Bool := false
  fallbackContent : Bool := false
  usage : Option ι := none
  deriving DecidableEq

structure Message (ι : Type) where
  id : Option String
  role : Role
  created : Int
  content : List (MessageContent ι)
  metadata : MessageMetadata ι := {}
  deriving DecidableEq

/-- `getGooseMessageMeta`. -/
structure GooseMessageMeta where
  messageId : Option String := none
  created : Option Int := none
  outputTokenLimitReached : Bool := false
  fallbackContent : Bool := false
  steer : Bool := false

/-- `toolIdentity`. -/
structure ToolIdentity where
  toolName : Option String := none
  extensionName : Option String := none

inductive AcpContentBlock (ι : Type)
  | text (text : String) (extra : Option ι)
  | image (data mimeType : String) (extra : Option ι)
  | other

structure ContentChunk (ι : Type) where
  content : AcpContentBlock ι
  messageId : Option String := none
  gooseMeta : GooseMessageMeta := {}

/-- A tool call or an update of one.  `notification` is the event that
`toolNotificationEvent` reads, and `mcpApp` is what `mcpAppMetadata` reads. -/
structure ToolCallUpdate (ι : Type) where
  toolCallId : String
  state : ToolCallState ι
  gooseMeta : GooseMessageMeta := {}
  identity : ToolIdentity := {}
  notification : Option ι := none
  mcpApp : Option ι := none
  extra : Option ι := none

inductive SessionUpdate (ι : Type)
  | userMessageChunk (chunk : ContentChunk ι)
  | agentMessageChunk (chunk : ContentChunk ι)
  | agentThoughtChunk (chunk : ContentChunk ι)
  | toolCall (update : ToolCallUpdate ι)
  | toolCallUpdate (update : ToolCallUpdate ι)
  | sessionInfoUpdate (title : Option String) (activeRunId : Option (Option String))
      (queuedSteerMessageId : Option String)
  | usageUpdate
  | other

structure TokenState where
  inputTokens : Int := 0
  outputTokens : Int := 0
  totalTokens : Int := 0
  accumulatedInputTokens : Int := 0
  accumulatedOutputTokens : Int := 0
  accumulatedTotalTokens : Int := 0
  accumulatedCost : Option String := none

inductive GooseSessionUpdate (ι : Type)
  | usageUpdate (used accumulatedInputTokens accumulatedOutputTokens : Int)
      (accumulatedCost : Option String)
  | progress (message : String)
  | notice (id message : String)
  | messageUsage (messageId : Option String) (usage : ι)
  | other

/-- A request for permission: the tool call, what `toolIdentity` reads of it, and the
first text of its content. -/
structure PermissionRequest (ι : Type) where
  toolCallId : String
  title : Option String
  identity : ToolIdentity
  arguments : Option ι
  prompt : Option String

structure ElicitationRequest (ι : Type) where
  id : String
  message : String
  requestedSchema : ι

inductive ChatStateChange (ι : Type)
  | messages (messages : List (Message ι))
  | tokenState (used accumulatedInputTokens accumulatedOutputTokens : Int)
      (accumulatedCost : Option String)
  | progressMessage (message : Option String)
  | sessionInfo (name : Option String) (activeRunId : Option (Option String))
  | localSteerConfirmed (messageId : String)
  | notification (requestId : String) (message : ι)

/-!
## The notification adapter of a chat session

Notifications build up the messages of a session: chunks extend messages, tool calls
and their results are blocks of messages, and requests to the user are messages.
-/

open Obelus.Data (JsMap)

variable {ι : Type}

structure AdapterState (ι : Type) where
  messages : List (Message ι) := []
  localSteerTextByMessageId : JsMap String String := JsMap.empty
  toolCallStatesById : JsMap String (ToolCallState ι) := JsMap.empty

namespace AdapterState

/-- A step of the adapter: its state and the changes that it tells. -/
abbrev Stepped (ι : Type) := AdapterState ι × List (ChatStateChange ι)

def messagesChange (state : AdapterState ι) : Stepped ι :=
  (state, [.messages state.messages])

def withMessages (messages : List (Message ι)) (state : AdapterState ι) : AdapterState ι :=
  { state with messages }

end AdapterState

open AdapterState (Stepped)

/-- An id that is there.  An empty id counts as none. -/
def present (id : Option String) : Option String :=
  id.filter fun id => id ≠ ""

/-- The place of the last message, when it is of the role and the agent sees it. -/
def lastMergeableMessageWithRole (messages : List (Message ι)) (role : Role) : Option Nat :=
  match messages.getLast? with
  | some last =>
    if last.role ≠ role ∨ last.metadata.agentVisible = false then none
    else some (messages.length - 1)
  | none => none

/-- The messages and the place of the message of a chunk.  A last message without an
id gets the id of the chunk. -/
def findMessageForChunk (messages : List (Message ι)) (role : Role) (messageId : Option String)
    (created : Option Int) : List (Message ι) × Option Nat :=
  match present messageId with
  | none => (messages, lastMergeableMessageWithRole messages role)
  | some id =>
    match messages.findIdx? fun message => message.id = some id && message.role = role with
    | some existing => (messages, some existing)
    | none =>
      match lastMergeableMessageWithRole messages role with
      | none => (messages, none)
      | some pending =>
        if (present (messages[pending]?.bind Message.id)).isSome then (messages, none)
        else
          (messages.modify pending fun message =>
            { message with id := some id, created := created.getD message.created },
            some pending)

def AcpContentBlock.messageContent : AcpContentBlock ι → Option (MessageContent ι)
  | .text content extra => some (.text content extra)
  | .image data mimeType extra => some (.image data mimeType extra)
  | .other => none

def Message.hasImageContent (message : Message ι) (data mimeType : String) : Bool :=
  message.content.any fun block =>
    match block with
    | .image otherData otherType _ => otherData = data && otherType = mimeType
    | _ => false

/-- Text continues the last text, an image that is there already is skipped. -/
def Message.addContent (content : MessageContent ι) (message : Message ι) : Message ι :=
  match message.content.getLast?, content with
  | some (.text before extra), .text text _ =>
    { message with content := message.content.dropLast ++ [.text (before ++ text) extra] }
  | _, .image data mimeType extra =>
    if message.hasImageContent data mimeType then message
    else { message with content := message.content ++ [.image data mimeType extra] }
  | _, content => { message with content := message.content ++ [content] }

/-- The text of the first block, when the chunk confirms a steer message. -/
def steerText (message : Message ι) (content : MessageContent ι) (isSteerChunk : Bool) :
    Option (String × Option ι) :=
  if !isSteerChunk || !message.metadata.steer || message.role ≠ .user then none
  else
    match content, message.content.head? with
    | .text text extra, some (.text _ _) => some (text, extra)
    | _, _ => none

def confirmation (message : Message ι) (isSteerChunk : Bool) : List (ChatStateChange ι) :=
  if isSteerChunk && message.metadata.steer && message.role = .user then
    (present message.id).toList.map .localSteerConfirmed
  else []

/-- The message with the flags of a chunk. -/
def Message.withChunkMeta (gooseMeta : GooseMessageMeta) (skips : Bool) (message : Message ι) :
    Message ι :=
  { message with
    metadata := { message.metadata with
      outputTokenLimitReached := gooseMeta.outputTokenLimitReached
      fallbackContent := !skips && gooseMeta.fallbackContent } }

/-- A chunk for the message at a place. -/
def extendMessage (state : AdapterState ι) (place : Nat) (message : Message ι)
    (content : MessageContent ι) (gooseMeta : GooseMessageMeta) : Stepped ι :=
  let skips := gooseMeta.outputTokenLimitReached && gooseMeta.fallbackContent &&
    !message.content.isEmpty
  let flagged := message.withChunkMeta gooseMeta skips
  let put := fun (changed : Message ι) (texts : JsMap String String) =>
    ({ state with
        messages := state.messages.set place changed
        localSteerTextByMessageId := texts } : AdapterState ι)
  let (changed, texts) :=
    if skips then (flagged, state.localSteerTextByMessageId)
    else
      match steerText flagged content gooseMeta.steer with
      | some (text, extra) =>
        let before := ((present flagged.id).bind state.localSteerTextByMessageId.get?).getD ""
        ({ flagged with content := .text (before ++ text) extra :: flagged.content.drop 1 },
          match present flagged.id with
          | some id => state.localSteerTextByMessageId.set id (before ++ text)
          | none => state.localSteerTextByMessageId)
      | none => (flagged.addContent content, state.localSteerTextByMessageId)
  let state := put changed texts
  (state, .messages state.messages :: confirmation changed gooseMeta.steer)

def applyContentChunk (now : Int) (state : AdapterState ι) (role : Role)
    (chunk : ContentChunk ι) : Stepped ι :=
  match chunk.content.messageContent with
  | none => (state, [])
  | some content =>
    let gooseMeta := chunk.gooseMeta
    let messageId := chunk.messageId.or gooseMeta.messageId
    let (messages, existing) :=
      findMessageForChunk state.messages role messageId gooseMeta.created
    match existing.bind fun place => messages[place]?.map (Prod.mk place) with
    | some (place, message) =>
      extendMessage (state.withMessages messages) place message content gooseMeta
    | none =>
      (state.withMessages (messages ++
        [{ id := present messageId
           role
           created := gooseMeta.created.getD now
           content := [content]
           metadata :=
            { steer := gooseMeta.steer
              outputTokenLimitReached := gooseMeta.outputTokenLimitReached
              fallbackContent := gooseMeta.fallbackContent } }])).messagesChange

/-- The thought continues the last thought of the message. -/
def Message.addThought (text : String) (gooseMeta : GooseMessageMeta) (message : Message ι) :
    Message ι :=
  { message with
    metadata := { message.metadata with
      outputTokenLimitReached := gooseMeta.outputTokenLimitReached }
    content :=
      match message.content.getLast? with
      | some (.thinking before signature) =>
        message.content.dropLast ++ [.thinking (before ++ text) signature]
      | _ => message.content ++ [.thinking text ""] }

/-- The messages with one for the update, and its place. -/
def orNewMessage (now : Int) (role : Role) (messageId : Option String)
    (gooseMeta : GooseMessageMeta) (found : List (Message ι) × Option Nat) :
    List (Message ι) × Nat :=
  match found.2 with
  | some place => (found.1, place)
  | none =>
    (found.1 ++
      [{ id := present messageId, role, created := gooseMeta.created.getD now,
         content := [] }],
      found.1.length)

def applyThoughtChunk (now : Int) (state : AdapterState ι) (chunk : ContentChunk ι) :
    Stepped ι :=
  match chunk.content with
  | .text text _ =>
    let gooseMeta := chunk.gooseMeta
    let messageId := chunk.messageId.or gooseMeta.messageId
    let (messages, place) := orNewMessage now .assistant messageId gooseMeta
      (findMessageForChunk state.messages .assistant messageId gooseMeta.created)
    AdapterState.messagesChange
      (state.withMessages (messages.modify place (Message.addThought text gooseMeta)))
  | _ => (state, [])

/-- `mergeToolCallState`: the fields of the update come first. -/
def ToolCallState.merge (previous update : ToolCallState ι) : ToolCallState ι where
  title := update.title.or previous.title
  status := update.status.or previous.status
  kind := update.kind.or previous.kind
  locations := update.locations.or previous.locations
  rawInput := update.rawInput.or previous.rawInput
  rawOutput := update.rawOutput.or previous.rawOutput
  content := update.content.or previous.content

def mergedToolCallState (state : AdapterState ι) (update : ToolCallUpdate ι) :
    ToolCallState ι :=
  ((state.toolCallStatesById.get? update.toolCallId).getD {}).merge update.state

/-- `updateToolCallState`. -/
def updateToolCallState (state : AdapterState ι) (update : ToolCallUpdate ι) : AdapterState ι :=
  { state with
    toolCallStatesById :=
      state.toolCallStatesById.set update.toolCallId (mergedToolCallState state update) }

def baseToolMetadata (update : ToolCallState ι) (identity : ToolIdentity) : ToolMetadata ι where
  title := present update.title
  status := update.status
  extensionName := present identity.extensionName
  kind := update.kind
  locations := update.locations

def MessageContent.isToolRequest (id : String) : MessageContent ι → Bool
  | .toolRequest requestId _ _ _ _ => requestId = id
  | _ => false

def MessageContent.isToolResponse (id : String) : MessageContent ι → Bool
  | .toolResponse responseId _ _ => responseId = id
  | _ => false

def applyToolCall (now : Int) (state : AdapterState ι) (update : ToolCallUpdate ι) :
    Stepped ι :=
  let state := updateToolCallState state update
  let gooseMeta := update.gooseMeta
  let (messages, place) := orNewMessage now .assistant gooseMeta.messageId gooseMeta
    (findMessageForChunk state.messages .assistant gooseMeta.messageId gooseMeta.created)
  let request : MessageContent ι := .toolRequest update.toolCallId
    ((update.identity.toolName.or update.state.title).getD "") update.state.rawInput
    (baseToolMetadata update.state update.identity) update.extra
  (state.withMessages (messages.modify place fun message =>
    if message.content.any (MessageContent.isToolRequest update.toolCallId) then message
    else { message with content := message.content ++ [request] })).messagesChange

def AdapterState.forgetToolCall (toolCallId : String) (state : AdapterState ι) :
    AdapterState ι :=
  { state with toolCallStatesById := state.toolCallStatesById.delete toolCallId }

/-- `toolResult` gives the result of a call that has finished. -/
def applyToolCallUpdate (toolResult : ToolCallState ι → Option ι →
    Except String (ToolResultValue ι)) (now : Int) (state : AdapterState ι)
    (update : ToolCallUpdate ι) : Stepped ι :=
  let toolCallState := mergedToolCallState state update
  let state := updateToolCallState state update
  if toolCallState.status ≠ some .completed ∧ toolCallState.status ≠ some .failed then
    (state, update.notification.toList.map (.notification update.toolCallId))
  else if state.messages.any fun message =>
      message.content.any (MessageContent.isToolResponse update.toolCallId) then
    (state.forgetToolCall update.toolCallId).messagesChange
  else
    let gooseMeta := update.gooseMeta
    let existing := (present gooseMeta.messageId).bind fun id =>
      state.messages.findIdx? fun message => message.id = some id && message.role = .user
    let (messages, place) :=
      orNewMessage now .user gooseMeta.messageId gooseMeta (state.messages, existing)
    let response : MessageContent ι := .toolResponse update.toolCallId
      (toolResult toolCallState update.mcpApp)
      { baseToolMetadata toolCallState update.identity with
        rawOutput := toolCallState.rawOutput
        content := toolCallState.content }
    ((state.withMessages (messages.modify place fun message =>
      { message with content := message.content ++ [response] })).forgetToolCall
        update.toolCallId).messagesChange

def MessageContent.isToolConfirmation (id : String) : MessageContent ι → Bool
  | .toolConfirmation requestId _ _ _ => requestId = id
  | _ => false

def MessageContent.isElicitation (id : String) : MessageContent ι → Bool
  | .elicitation requestId _ _ _ => requestId = id
  | _ => false

namespace AdapterState

def applyPermissionRequest (now : Int) (state : AdapterState ι)
    (request : PermissionRequest ι) : Stepped ι :=
  if state.messages.any fun message =>
      message.content.any (MessageContent.isToolConfirmation request.toolCallId) then
    state.messagesChange
  else
    (state.withMessages (state.messages ++
      [{ id := some s!"acp_permission_{request.toolCallId}"
         role := .assistant
         created := now
         content := [.toolConfirmation request.toolCallId
          ((request.identity.toolName.or request.title).getD request.toolCallId)
          request.arguments request.prompt] }])).messagesChange

def applyElicitationRequest (now : Int) (state : AdapterState ι)
    (request : ElicitationRequest ι) : Stepped ι :=
  if state.messages.any fun message =>
      message.content.any (MessageContent.isElicitation request.id) then
    state.messagesChange
  else
    (state.withMessages (state.messages ++
      [{ id := some request.id
         role := .assistant
         created := now
         content :=
          [.elicitation request.id request.message request.requestedSchema none] }])).messagesChange

def setStatus (elicitationId : String) (status : ElicitationStatus) :
    MessageContent ι → MessageContent ι
  | .elicitation id message requestedSchema before =>
    .elicitation id message requestedSchema (if id = elicitationId then some status else before)
  | content => content

def applyElicitationStatus (elicitationId : String) (status : ElicitationStatus)
    (state : AdapterState ι) : Stepped ι :=
  if state.messages.any fun message =>
      message.content.any (MessageContent.isElicitation elicitationId) then
    messagesChange (state.withMessages (state.messages.map fun message =>
      { message with content := message.content.map (setStatus elicitationId status) }))
  else (state, [])

end AdapterState

/-- The clock of a step, and the results of finished tool calls. -/
structure AdapterHost (ι : Type) where
  now : Int
  toolResult : ToolCallState ι → Option ι → Except String (ToolResultValue ι)

/-- The message is from the provider, not made by the client. -/
def MessageContent.isProviderContent : MessageContent ι → Bool
  | .toolConfirmation _ _ _ _ => false
  | .elicitation _ _ _ _ => false
  | .systemNotification _ _ _ => false
  | _ => true

/-- The message whose usage is told: the one with the id, or the last one of the
assistant with content of the provider. -/
def usageTarget (messages : List (Message ι)) (messageId : Option String) : Option Nat :=
  ((present messageId).bind fun id => messages.findIdx? fun message => message.id = some id).or
    (messages.reverse.findIdx? (fun message =>
      message.role = .assistant && message.content.any MessageContent.isProviderContent) |>.map
        fun place => messages.length - 1 - place)

namespace AdapterState

def apply (host : AdapterHost ι) (state : AdapterState ι) : SessionUpdate ι → Stepped ι
  | .userMessageChunk chunk => applyContentChunk host.now state .user chunk
  | .agentMessageChunk chunk => applyContentChunk host.now state .assistant chunk
  | .agentThoughtChunk chunk => applyThoughtChunk host.now state chunk
  | .toolCall update => applyToolCall host.now state update
  | .toolCallUpdate update => applyToolCallUpdate host.toolResult host.now state update
  | .sessionInfoUpdate title activeRunId queuedSteerMessageId =>
    let name := present title
    (state,
      (if name.isSome || activeRunId.isSome then [.sessionInfo name activeRunId] else []) ++
        (present queuedSteerMessageId).toList.map .localSteerConfirmed)
  | .usageUpdate => (state, [])
  | .other => (state, [])

def applyGoose (host : AdapterHost ι) (state : AdapterState ι) :
    GooseSessionUpdate ι → Stepped ι
  | .usageUpdate used input output cost => (state, [.tokenState used input output cost])
  | .progress message => (state, [.progressMessage (some message)])
  | .notice id message =>
    (state.withMessages (state.messages ++
      [{ id := some id
         role := .assistant
         created := host.now
         content := [.systemNotification "inlineMessage" message none]
         metadata := { agentVisible := false } }])).messagesChange
  | .messageUsage messageId usage =>
    match usageTarget state.messages messageId with
    | some target =>
      messagesChange (state.withMessages (state.messages.modify target fun message =>
        { message with metadata := { message.metadata with usage := some usage } }))
    | none => (state, [])
  | .other => (state, [])

end AdapterState

end Obelus.Acp
