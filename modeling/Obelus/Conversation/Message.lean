import Mathlib.Data.List.DropRight
import Obelus.Meetings.Validation

/-!
# Messages

The messages of a conversation with a language model.  Of the blocks of a
message only what repairing a conversation reads is kept: the ids of tool
calls, the results of tools, the texts, and the whole of a thinking block, which
is compared with others.
-/

namespace Obelus.Conversation

/-- What the repair takes from its surroundings: the time, and the Unicode
normal form and the base64 decoding of other libraries. -/
structure Host where
  timestamp : Int
  nfc : String → String
  decodeBase64 : String → Option ByteArray

inductive Role
  | user
  | assistant
  deriving DecidableEq

inductive ResourceContents
  | textResourceContents (text : String)
  | blobResourceContents (blob : String) (mimeType : Option String)
  deriving DecidableEq

/-- A block of the result of a tool. -/
inductive ContentBlock
  | text (text : String)
  | image
  | audio
  | resource (resource : ResourceContents)
  | resourceLink
  deriving DecidableEq

structure TextContent where
  text : String
  audience : Option (List Role)
  deriving DecidableEq

structure ToolResponse where
  id : String
  toolResult : Except String (List ContentBlock)
  deriving DecidableEq

inductive MessageContentBlock
  | text (text : TextContent)
  | image
  | toolRequest (id : String)
  | toolResponse (response : ToolResponse)
  | toolConfirmationRequest (id : String)
  | actionRequired
  | frontendToolRequest (id : String)
  | thinking (thinking signature : String)
  | redactedThinking (data : String)
  | systemNotification
  | error
  deriving DecidableEq

structure MessageMetadata where
  userVisible : Bool := true
  agentVisible : Bool := true
  outputTokenLimitReached : Bool := false
  steer : Bool := false
  turnContext : Bool := false
  deriving DecidableEq

structure Message where
  id : Option String
  role : Role
  created : Int
  content : List MessageContentBlock
  metadata : MessageMetadata
  deriving DecidableEq

def MessageContentBlock.asText : MessageContentBlock → Option String
  | .text content => some content.text
  | _ => none

/-- A new user message with one text that no annotation restricts. -/
def Message.userText (host : Host) (text : String) : Message where
  id := none
  role := .user
  created := host.timestamp
  content := [.text { text, audience := none }]
  metadata := {}

/-- `str::trim_end`. -/
def trimEnd (text : String) : String :=
  String.ofList (text.toList.rdropWhile Meetings.Validation.isWhitespace)

/-- The characters of the Unicode tag block are dropped from the normal form. -/
def sanitizeUnicodeTags (host : Host) (text : String) : String :=
  String.ofList ((host.nfc text).toList.filter fun c => ¬(0xE0000 ≤ c.val ∧ c.val ≤ 0xE007F))

def extractTextFromResource (host : Host) : ResourceContents → String
  | .textResourceContents text => sanitizeUnicodeTags host text
  | .blobResourceContents blob mimeType =>
    match host.decodeBase64 blob with
    | some bytes =>
      match String.fromUTF8? bytes with
      | some text => sanitizeUnicodeTags host text
      | none =>
        "[Binary content (" ++ mimeType.getD "application/octet-stream" ++ ") - " ++
          toString bytes.size ++ " bytes]"
    | none => sanitizeUnicodeTags host blob

end Obelus.Conversation
