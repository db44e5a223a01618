import Obelus.Conversation.Message

/-!
# Repairing a conversation

The passes that prepare the messages the agent sees for a provider, in the
order in which they run, and the repair of a whole conversation, which leaves
the other messages in their places.  Every pass gives the messages and the
issues it found.
-/

namespace Obelus.Conversation

/-- A text joins the text before it when both are for the same audience. -/
def pushMergingText (content : List MessageContentBlock) (item : MessageContentBlock) :
    List MessageContentBlock :=
  match item, content.getLast? with
  | .text text, some (.text last) =>
    if last.audience = text.audience then
      content.dropLast ++ [.text { last with text := last.text ++ text.text }]
    else content ++ [item]
  | _, _ => content ++ [item]

def mergeTextContentInMessage (message : Message) : Message :=
  if message.role ≠ .assistant then message
  else { message with content := message.content.foldl pushMergingText [] }

def mergeTextContentItems (messages : List Message) : List Message × List String :=
  (messages.map mergeTextContentInMessage,
    messages.filterMap fun message =>
      if message.content.length ≠ (mergeTextContentInMessage message).content.length then
        some "Merged text content"
      else none)

def trimText : MessageContentBlock → MessageContentBlock
  | .text text => .text { text with text := trimEnd text.text }
  | other => other

def trimAssistantText (message : Message) : Message :=
  if message.role = .assistant then { message with content := message.content.map trimText }
  else message

def trimAssistantTextWhitespace (messages : List Message) : List Message × List String :=
  (messages.map trimAssistantText,
    messages.flatMap fun message =>
      if message.role = .assistant then
        message.content.filterMap fun block =>
          if trimText block ≠ block then
            some "Trimmed trailing whitespace from assistant message"
          else none
      else [])

/-- No block of the message is other than an empty text. -/
def Message.isEmpty (message : Message) : Bool :=
  message.content.all fun block => block.asText = some ""

def removeEmptyMessages (messages : List Message) : List Message × List String :=
  (messages.filter fun message => !message.isEmpty,
    (messages.filter Message.isEmpty).map fun _ => "Removed empty message")

def hasToolResultContent (host : Host) (content : List ContentBlock) : Bool :=
  content.any fun block =>
    match block with
    | .text text => text ≠ ""
    | .resource resource => extractTextFromResource host resource ≠ ""
    | .image => true
    | .audio => false
    | .resourceLink => false

def emptyToolResult (host : Host) : MessageContentBlock → Option (String × List ContentBlock)
  | .toolResponse ⟨id, .ok content⟩ =>
    if hasToolResultContent host content then none else some (id, content)
  | _ => none

def fixEmptyToolResult (host : Host) (block : MessageContentBlock) : MessageContentBlock :=
  match emptyToolResult host block with
  | some (id, content) => .toolResponse ⟨id, .ok (content ++ [.text "(empty result)"])⟩
  | none => block

def fixEmptyToolResultsInMessage (host : Host) (message : Message) : Message :=
  { message with content := message.content.map (fixEmptyToolResult host) }

def fixEmptyToolResults (host : Host) (messages : List Message) : List Message × List String :=
  (messages.map (fixEmptyToolResultsInMessage host),
    messages.flatMap fun message =>
      message.content.filterMap fun block =>
        (emptyToolResult host block).map fun result =>
          "Added placeholder to empty tool result '" ++ result.1 ++ "'")

/-- The issue for which a block is removed, if it is. -/
def removalIssue (pendingToolRequests : List String) : Role → MessageContentBlock → Option String
  | .user, .toolRequest id => some ("Removed tool request '" ++ id ++ "' from user message")
  | .user, .toolConfirmationRequest id =>
    some ("Removed tool confirmation request '" ++ id ++ "' from user message")
  | .user, .thinking _ _ => some "Removed thinking content from user message"
  | .user, .redactedThinking _ => some "Removed thinking content from user message"
  | .user, .toolResponse response =>
    if response.id ∈ pendingToolRequests then none
    else some ("Removed orphaned tool response '" ++ response.id ++ "'")
  | .assistant, .toolResponse response =>
    some ("Removed tool response '" ++ response.id ++ "' from assistant message")
  | .assistant, .frontendToolRequest id =>
    some ("Removed frontend tool request '" ++ id ++ "' from assistant message")
  | _, _ => none

def pendingAfter (pendingToolRequests : List String) :
    Role → MessageContentBlock → List String
  | .user, .toolResponse response => pendingToolRequests.filter (· ≠ response.id)
  | .assistant, .toolRequest id => pendingToolRequests.insert id
  | _, _ => pendingToolRequests

/-- What the first walk makes of a list: what is left of it, the requests that
are pending after it, and the issues. -/
structure Walked (α : Type) where
  left : List α
  pendingToolRequests : List String
  issues : List String

def walkContent (role : Role) (pendingToolRequests : List String) :
    List MessageContentBlock → Walked MessageContentBlock
  | [] => ⟨[], pendingToolRequests, []⟩
  | block :: rest =>
    let walked := walkContent role (pendingAfter pendingToolRequests role block) rest
    match removalIssue pendingToolRequests role block with
    | some issue => { walked with issues := issue :: walked.issues }
    | none => { walked with left := block :: walked.left }

def walkMessages (pendingToolRequests : List String) : List Message → Walked Message
  | [] => ⟨[], pendingToolRequests, []⟩
  | message :: rest =>
    let content := walkContent message.role pendingToolRequests message.content
    let walked := walkMessages content.pendingToolRequests rest
    { left := { message with content := content.left } :: walked.left
      pendingToolRequests := walked.pendingToolRequests
      issues := content.issues ++ walked.issues }

/-- A tool request of the assistant without a response. -/
def orphanedRequest (pendingToolRequests : List String) (role : Role) :
    MessageContentBlock → Option String
  | .toolRequest id => if role = .assistant ∧ id ∈ pendingToolRequests then some id else none
  | _ => none

def removeOrphanedRequests (pendingToolRequests : List String) (message : Message) : Message :=
  { message with
    content := message.content.filter fun block =>
      (orphanedRequest pendingToolRequests message.role block).isNone }

def fixToolCalling (messages : List Message) : List Message × List String :=
  let walked := walkMessages [] messages
  let (fixed, emptyRemoved) :=
    removeEmptyMessages (walked.left.map (removeOrphanedRequests walked.pendingToolRequests))
  (fixed,
    walked.issues ++
      (walked.left.flatMap fun message =>
        message.content.filterMap fun block =>
          (orphanedRequest walked.pendingToolRequests message.role block).map fun id =>
            "Removed orphaned tool request '" ++ id ++ "'") ++
      emptyRemoved)

inductive EffectiveRole
  | user
  | assistant
  | tool
  deriving DecidableEq

def EffectiveRole.text : EffectiveRole → String
  | .user => "user"
  | .assistant => "assistant"
  | .tool => "tool"

def hasToolResponse (message : Message) : Bool :=
  message.content.any fun block =>
    match block with
    | .toolResponse _ => true
    | _ => false

def effectiveRole (message : Message) : EffectiveRole :=
  match message.role with
  | .user => if hasToolResponse message then .tool else .user
  | .assistant => .assistant

/-- Two neighbours are merged. -/
def Joins (acrossVisibility : Bool) (last message : Message) : Prop :=
  effectiveRole last = effectiveRole message ∧
    (acrossVisibility ∨ (last.metadata.userVisible = message.metadata.userVisible ∧
      last.metadata.turnContext = message.metadata.turnContext))

instance (acrossVisibility : Bool) (last message : Message) :
    Decidable (Joins acrossVisibility last message) :=
  inferInstanceAs (Decidable (_ ∧ (_ ∨ (_ ∧ _))))

def mergeStep (acrossVisibility : Bool) (merged : List Message × List String)
    (message : Message) : List Message × List String :=
  match merged.1.getLast? with
  | some last =>
    if Joins acrossVisibility last message then
      (merged.1.dropLast ++ [{ last with content := last.content ++ message.content }],
        merged.2 ++ ["Merged consecutive " ++ (effectiveRole message).text ++ " messages"])
    else (merged.1 ++ [message], merged.2)
  | none => (merged.1 ++ [message], merged.2)

def mergeConsecutive (messages : List Message) (acrossVisibility : Bool) :
    List Message × List String :=
  messages.foldl (mergeStep acrossVisibility) ([], [])

def mergeConsecutiveMessages (messages : List Message) : List Message × List String :=
  mergeConsecutive messages false

def isSignedThinking : MessageContentBlock → Bool
  | .thinking _ signature => signature ≠ ""
  | .redactedThinking _ => true
  | _ => false

/-- The blocks without the signed thinking that was seen, and what is seen after
them. -/
def dedupeContent (seen : List MessageContentBlock) :
    List MessageContentBlock → List MessageContentBlock × List MessageContentBlock
  | [] => ([], seen)
  | block :: rest =>
    if isSignedThinking block then
      if block ∈ seen then dedupeContent seen rest
      else
        let (deduped, seenAfter) := dedupeContent (seen ++ [block]) rest
        (block :: deduped, seenAfter)
    else
      let (deduped, seenAfter) := dedupeContent seen rest
      (block :: deduped, seenAfter)

def dedupeMessages (seen : List MessageContentBlock) :
    List Message → List Message × List String
  | [] => ([], [])
  | message :: rest =>
    if message.role ≠ .assistant then
      let (fixed, issues) := dedupeMessages seen rest
      (message :: fixed, issues)
    else
      let (deduped, seenAfter) := dedupeContent seen message.content
      let (fixed, issues) := dedupeMessages seenAfter rest
      if deduped.length ≠ message.content.length then
        ({ message with content := deduped } :: fixed,
          "Removed duplicate signed thinking block" :: issues)
      else (message :: fixed, issues)

def dedupeSignedThinking (messages : List Message) : List Message × List String :=
  dedupeMessages [] messages

def removeLeading (messages : List Message) : List Message × List String :=
  match messages with
  | first :: rest =>
    if first.role = .assistant then (rest, ["Removed leading assistant message"])
    else (messages, [])
  | [] => (messages, [])

def removeTrailing (messages : List Message) : List Message × List String :=
  match messages.getLast? with
  | some last =>
    if last.role = .assistant then (messages.dropLast, ["Removed trailing assistant message"])
    else (messages, [])
  | none => (messages, [])

def fixLeadTrail (messages : List Message) : List Message × List String :=
  let (led, leading) := removeLeading messages
  let (trailed, trailing) := removeTrailing led
  (trailed, leading ++ trailing)

def populateIfEmpty (host : Host) (messages : List Message) : List Message × List String :=
  if messages = [] then
    ([Message.userText host "Hello"], ["Added placeholder user message to empty conversation"])
  else (messages, [])

def processors (host : Host) : List (List Message → List Message × List String) :=
  [mergeTextContentItems, trimAssistantTextWhitespace, removeEmptyMessages,
    fixEmptyToolResults host, fixToolCalling, mergeConsecutiveMessages, dedupeSignedThinking,
    fixLeadTrail, populateIfEmpty host]

def runProcessor (fixed : List Message × List String)
    (processor : List Message → List Message × List String) : List Message × List String :=
  let (messages, issues) := processor fixed.1
  (messages, fixed.2 ++ issues)

def fixMessages (host : Host) (messages : List Message) : List Message × List String :=
  (processors host).foldl runProcessor (messages, [])

inductive MessageSlot
  | visible (index : Nat)
  | nonVisible (message : Message)

/-- A slot for each message; the messages the agent sees are numbered. -/
def shadowMap (index : Nat) : List Message → List MessageSlot
  | [] => []
  | message :: rest =>
    if message.metadata.agentVisible then .visible index :: shadowMap (index + 1) rest
    else .nonVisible message :: shadowMap index rest

def agentVisible (messages : List Message) : List Message :=
  messages.filter fun message => message.metadata.agentVisible

def fillSlot (fixedVisible : List Message) : MessageSlot → Option Message
  | .visible index => fixedVisible[index]?
  | .nonVisible message => some message

def fixConversation (host : Host) (conversation : List Message) :
    List Message × List String :=
  let (fixedVisible, issues) := fixMessages host (agentVisible conversation)
  ((shadowMap 0 conversation).filterMap (fillSlot fixedVisible), issues)

end Obelus.Conversation
