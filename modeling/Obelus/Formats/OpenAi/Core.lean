import Obelus.Conversation.Message

/-!
# Histories in the format of OpenAI

How the messages of a conversation become the messages of a chat completion
request.  A JSON object that the formatter builds is a record with the keys that
it can have; an absent key is `none`, and `tool_calls` is absent when empty.
-/

namespace Obelus.Formats.OpenAi

open List
open Obelus.Conversation (Role ResourceContents)
open Obelus.Data (Json)

structure ImageContent where
  data : String
  mimeType : String

/-- What the formatter takes from its surroundings: the normal form and the
base64 decoding of other libraries, the text of a JSON value where it has one,
and the image at the path that a text names, where it can be loaded. -/
structure Host where
  conversation : Conversation.Host
  toJsonText : List (String × Json) → Option String
  loadImage : String → Option ImageContent

/-- A block of the result of a tool. -/
inductive ContentBlock
  | text (text : String)
  | image (image : ImageContent)
  | resource (resource : ResourceContents)
  | audio
  | resourceLink

structure CallToolRequestParams where
  name : String
  arguments : Option (List (String × Json))

structure ToolRequest where
  id : String
  toolCall : Except String CallToolRequestParams
  metadata : Option (List (String × Json))

structure ToolResponse where
  id : String
  toolResult : Except String (List ContentBlock)

structure FrontendToolRequest where
  id : String
  toolCall : Except String CallToolRequestParams

inductive MessageContentBlock
  | text (text : String)
  | image (image : ImageContent)
  | toolRequest (request : ToolRequest)
  | toolResponse (response : ToolResponse)
  | toolConfirmationRequest
  | actionRequired
  | frontendToolRequest (request : FrontendToolRequest)
  | thinking (thinking : String)
  | redactedThinking
  | systemNotification
  | error

structure Message where
  role : Role
  content : List MessageContentBlock

inductive SpecRole
  | user
  | assistant
  | tool
  deriving DecidableEq

inductive ContentItem
  | text (text : String)
  | imageUrl (url : String)
  | image (mediaType data : String)

inductive Content
  | null
  | text (text : String)
  | items (items : List ContentItem)

structure ToolCall where
  id : Json
  type : Json
  function : Json
  extra : List (String × Json) := []

structure SpecMessage where
  role : SpecRole
  content : Option Content := none
  toolCalls : List ToolCall := []
  toolCallId : Option String := none
  reasoningContent : Option String := none

inductive ImageFormat
  | openAi
  | anthropic

inductive ThinkingPreservationFormat
  | reasoningContent
  | contentPrepend
  | contentXml

structure OpenAiFormatOptions where
  preserveThinkingContext : Bool := false
  thinkingPreservationFormat : Option ThinkingPreservationFormat := none

def convertImage (image : ImageContent) : ImageFormat → ContentItem
  | .openAi => .imageUrl ("data:" ++ image.mimeType ++ ";base64," ++ image.data)
  | .anthropic => .image image.mimeType image.data

def isFunctionNameCharacter (c : Char) : Bool :=
  c.isAlphanum || c == '_' || c == '-'

def maxFunctionNameLength : Nat :=
  128

def sanitizeFunctionName (name : String) : String :=
  String.ofList ((name.toList.map fun c => if isFunctionNameCharacter c then c else '_').take
    maxFunctionNameLength)

def mergeReasoningText (before after : String) : String :=
  if before.isEmpty then after
  else if after.isEmpty then before
  else if after.startsWith before then after
  else if before.endsWith after then before
  else before ++ after

variable (host : Host) (imageFormat : ImageFormat)

def argumentsText (arguments : Option (List (String × Json))) : String :=
  match arguments with
  | some fields => (host.toJsonText fields).getD "{}"
  | none => "{}"

def functionCall (id name arguments : String) : ToolCall where
  id := .string id
  type := .string "function"
  function := .object [("name", .string name), ("arguments", .string arguments)]

/-- An assignment to a key of the JSON object of a call. -/
def ToolCall.set (call : ToolCall) (key : String) (value : Json) : ToolCall :=
  if key = "id" then { call with id := value }
  else if key = "type" then { call with type := value }
  else if key = "function" then { call with function := value }
  else { call with extra := call.extra.filter (fun field => field.1 ≠ key) ++ [(key, value)] }

/-- The call of a tool request.  A request that could not be parsed gets a
placeholder, so that the result that answers it has a call. -/
def requestCall (request : ToolRequest) : ToolCall :=
  match request.toolCall with
  | .ok toolCall =>
    (request.metadata.getD []).foldl (fun call field => call.set field.1 field.2)
      (functionCall request.id (sanitizeFunctionName toolCall.name)
        (argumentsText host toolCall.arguments))
  | .error _ => functionCall request.id "unparseable_tool_call" "{}"

namespace MessageContentBlock

/-- What a block adds to `content_array`. -/
def contentItems (role : Role) : MessageContentBlock → List ContentItem
  | .text content =>
    if content.isEmpty then []
    else if role = .user then
      match host.loadImage content with
      | some img => [.text content, convertImage img imageFormat]
      | none => [.text content]
    else [.text content]
  | .image img =>
    if role = .user then [convertImage img imageFormat]
    else [.text "[Image content removed - not supported in assistant messages]"]
  | _ => []

/-- What a block adds to `tool_calls`. -/
def toolCall : MessageContentBlock → Option ToolCall
  | .toolRequest request => some (requestCall host request)
  | .frontendToolRequest request =>
    match request.toolCall with
    | .ok toolCall =>
      some (functionCall request.id (sanitizeFunctionName toolCall.name)
        (argumentsText host toolCall.arguments))
    | .error _ => none
  | _ => none

def thought : MessageContentBlock → String
  | .thinking thoughts => thoughts
  | _ => ""

end MessageContentBlock

/-- The text of a block of a result, with a placeholder for an image. -/
def ContentBlock.resultText : ContentBlock → String
  | .text content => content
  | .image _ => "This tool result included an image that is uploaded in the next message."
  | .resource contents => Conversation.extractTextFromResource host.conversation contents
  | .audio => ""
  | .resourceLink => ""

def ContentBlock.asImage : ContentBlock → Option ImageContent
  | .image img => some img
  | _ => none

def toolMessage (id text : String) : SpecMessage where
  role := .tool
  content := some (.text text)
  toolCallId := some id

def imageMessage (image : ImageContent) : SpecMessage where
  role := .user
  content := some (.items [convertImage image imageFormat])

namespace ToolResponse

def text (response : ToolResponse) : String :=
  match response.toolResult with
  | .ok content => " ".intercalate (content.map (ContentBlock.resultText host))
  | .error failure => "The tool call returned the following error:\n" ++ failure

def images (response : ToolResponse) : List ImageContent :=
  match response.toolResult with
  | .ok content => content.filterMap ContentBlock.asImage
  | .error _ => []

end ToolResponse

/-- The result of a call, and the images in it as messages of the user. -/
def responseMessages (response : ToolResponse) : List SpecMessage :=
  toolMessage response.id (response.text host) :: response.images.map (imageMessage imageFormat)

/-- What a block adds to `output`. -/
def MessageContentBlock.output : MessageContentBlock → List SpecMessage
  | .toolResponse response => responseMessages host imageFormat response
  | .frontendToolRequest request =>
    match request.toolCall with
    | .ok _ => []
    | .error failure => [toolMessage request.id ("Error: " ++ failure)]
  | _ => []

def ContentItem.asText : ContentItem → Option String
  | .text content => some content
  | _ => none

/-- Texts alone are joined, a list with an image is kept as it is. -/
def contentOf (items : List ContentItem) : Option Content :=
  if items.isEmpty then none
  else if items.any (fun item => item.asText.isNone) then some (.items items)
  else some (.text ("\n".intercalate (items.filterMap ContentItem.asText)))

def specRole : Role → SpecRole
  | .user => .user
  | .assistant => .assistant

/-- `converted`, before its reasoning is known.  Some providers require the
content of a message with calls to be present. -/
def convert (message : Message) : SpecMessage :=
  let content :=
    contentOf (message.content.flatMap fun block =>
      block.contentItems host imageFormat message.role)
  let toolCalls := message.content.filterMap (MessageContentBlock.toolCall host)
  { role := specRole message.role
    toolCalls
    content :=
      if message.role = .assistant ∧ toolCalls ≠ [] ∧ content = none then some .null
      else content }

def SpecMessage.hasPayload (converted : SpecMessage) : Bool :=
  converted.content.isSome || !converted.toolCalls.isEmpty

def Message.hasToolResponse (message : Message) : Bool :=
  message.content.any fun block => match block with
    | .toolResponse _ => true
    | _ => false

/-- The reasoning that the loop over the messages carries along. -/
structure FormatState where
  pendingAssistantReasoning : String := ""
  toolCallTurnReasoning : String := ""
  sawToolResponse : Bool := false

/-- What is forgotten when a message begins. -/
def FormatState.atMessage (state : FormatState) (message : Message) : FormatState :=
  match message.role with
  | .user =>
    if message.hasToolResponse then
      { state with pendingAssistantReasoning := "", sawToolResponse := true }
    else {}
  | .assistant =>
    if state.sawToolResponse then
      { state with toolCallTurnReasoning := "", sawToolResponse := false }
    else state

/-- The body of the loop over the messages. -/
def formatMessage (options : OpenAiFormatOptions) (state : FormatState) (message : Message) :
    FormatState × List SpecMessage :=
  let state := if options.preserveThinkingContext then state.atMessage message else state
  let converted := convert host imageFormat message
  let output := message.content.flatMap (MessageContentBlock.output host imageFormat)
  let thoughts := String.join (message.content.map MessageContentBlock.thought)
  let emit (reasoning : String) : List SpecMessage :=
    let reasoningContent :=
      if options.preserveThinkingContext ∧ ¬reasoning.isEmpty then some reasoning else none
    if converted.hasPayload then { converted with reasoningContent } :: output else output
  if options.preserveThinkingContext ∧ message.role = .assistant then
    if ¬converted.hasPayload ∧ output.isEmpty ∧ ¬thoughts.isEmpty then
      ({ state with
          pendingAssistantReasoning := state.pendingAssistantReasoning ++ thoughts }, [])
    else
      let reasoning :=
        if state.pendingAssistantReasoning.isEmpty then thoughts
        else mergeReasoningText state.pendingAssistantReasoning thoughts
      let state := { state with pendingAssistantReasoning := "" }
      if !converted.toolCalls.isEmpty ∧ reasoning.isEmpty then
        (state, emit state.toolCallTurnReasoning)
      else ({ state with toolCallTurnReasoning := reasoning }, emit reasoning)
  else (state, emit thoughts)

def formatEach (options : OpenAiFormatOptions) (state : FormatState) :
    List Message → List SpecMessage
  | [] => []
  | message :: rest =>
    let formatted := formatMessage host imageFormat options state message
    formatted.2 ++ formatEach options formatted.1 rest

namespace SpecMessage

def isAssistantToolCall (message : SpecMessage) : Bool :=
  message.role = .assistant && !message.toolCalls.isEmpty

def isImageOnlyUserMessage (message : SpecMessage) : Bool :=
  message.role = .user && match message.content with
    | some (.items items) =>
      !items.isEmpty && items.all fun item => match item with
        | .imageUrl _ => true
        | _ => false
    | _ => false

def hasNoContent (message : SpecMessage) : Bool :=
  match message.content with
  | none => true
  | some .null => true
  | some (.text text) => text.isEmpty
  | some (.items items) => items.isEmpty

/-- Another part of the turn whose reasoning is `base`. -/
def isSplit (base : String) (message : SpecMessage) : Bool :=
  message.isAssistantToolCall && message.hasNoContent && message.reasoningContent = some base

end SpecMessage

/-- The messages between the parts of a turn, the calls of the parts, and the
messages that follow the last part. -/
structure SplitTurn where
  collected : List SpecMessage := []
  extraToolCalls : List ToolCall := []
  after : List SpecMessage

/-- The loop over `scan`.  Image messages that follow a result are skipped. -/
def scanSplit (base : String) (messages : List SpecMessage) : SplitTurn :=
  match messages with
  | [] => { after := [] }
  | result :: rest =>
    if result.role = .tool then
      match _found : rest.dropWhile SpecMessage.isImageOnlyUserMessage with
      | [] => { after := result :: rest }
      | next :: after =>
        if next.isSplit base then
          let later := scanSplit base after
          { collected :=
              result :: rest.takeWhile SpecMessage.isImageOnlyUserMessage ++ later.collected
            extraToolCalls := next.toolCalls ++ later.extraToolCalls
            after := later.after }
        else { after := result :: rest }
    else { after := result :: rest }
termination_by messages.length
decreasing_by
  have shorter := (rest.dropWhile_suffix SpecMessage.isImageOnlyUserMessage).length_le
  simp_all
  omega

theorem scanSplit_after_suffix (base : String) (messages : List SpecMessage) :
    (scanSplit base messages).after <:+ messages := by
  fun_induction scanSplit base messages with
  | case1 => exact suffix_rfl
  | case2 result rest isTool found => exact suffix_rfl
  | case3 result rest isTool next after found isPart later ih =>
    have inRest : next :: after <:+ rest := found ▸ dropWhile_suffix _
    exact ih.trans ((suffix_cons next after).trans (inRest.trans (suffix_cons result rest)))
  | case4 result rest isTool next after found isPart => exact suffix_rfl
  | case5 result rest isTool => exact suffix_rfl

/-- The parts of one response of an assistant, which are stored as pairs of a
call and its result, become one message with all calls. -/
def mergeSplitToolCallMessages : List SpecMessage → List SpecMessage
  | [] => []
  | message :: rest =>
    match message.reasoningContent with
    | some base =>
      if message.isAssistantToolCall then
        let split := scanSplit base rest
        if split.extraToolCalls.isEmpty then message :: mergeSplitToolCallMessages rest
        else
          { message with toolCalls := message.toolCalls ++ split.extraToolCalls } ::
            (split.collected ++ mergeSplitToolCallMessages split.after)
      else message :: mergeSplitToolCallMessages rest
    | none => message :: mergeSplitToolCallMessages rest
termination_by messages => messages.length
decreasing_by
  · exact Nat.lt_succ_self rest.length
  · exact Nat.lt_succ_of_le (scanSplit_after_suffix _ rest).length_le
  · exact Nat.lt_succ_self rest.length
  · exact Nat.lt_succ_self rest.length

def ThinkingPreservationFormat.wrap (text : String) : ThinkingPreservationFormat → Option String
  | .reasoningContent => none
  | .contentPrepend => some (text ++ "\n\n")
  | .contentXml => some ("<think>\n" ++ text ++ "\n</think>\n\n")

def inlineReasoning (format : ThinkingPreservationFormat) (message : SpecMessage) : SpecMessage :=
  match message.reasoningContent.bind fun reasoning => format.wrap reasoning with
  | none => message
  | some thoughts =>
    let content := match message.content with
      | some (.text text) => Content.text (thoughts ++ text)
      | some (.items items) => .items (.text thoughts :: items)
      | some .null => .text (Conversation.trimEnd thoughts)
      | none => .text (Conversation.trimEnd thoughts)
    { message with content := some content, reasoningContent := none }

def formatMessagesWithOptions (options : OpenAiFormatOptions) (messages : List Message) :
    List SpecMessage :=
  let merged := mergeSplitToolCallMessages (formatEach host imageFormat options {} messages)
  match options.thinkingPreservationFormat with
  | none => merged
  | some format => merged.map (inlineReasoning format)

def formatMessages (messages : List Message) : List SpecMessage :=
  formatMessagesWithOptions host imageFormat { preserveThinkingContext := true } messages

end Obelus.Formats.OpenAi
