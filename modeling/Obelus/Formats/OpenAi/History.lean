import Obelus.Formats.OpenAi.SplitTurns

/-!
# Well-formed histories

In a formatted history the calls of an assistant message are answered before the
next assistant message, and by nothing else.  Every call, result, image and text
of the messages occurs once, calls and results in their order.
-/

namespace Obelus.Formats.OpenAi

open List
open Obelus.Conversation (Role)
open Obelus.Data (Json exists_left_of_forall₂ turn EveryTurn turn_append turn_cons_of_opens
  turn_cons_of_not_opens everyTurn_nil everyTurn_cons_iff everyTurn_append_iff mem_of_mem_turn)
open MessageContentBlock (contentItems output)

variable (host : Host) (imageFormat : ImageFormat)

/-! ## Messages in exchange -/

def MessageContentBlock.requestId : MessageContentBlock → Option String
  | .toolRequest request => some request.id
  | .frontendToolRequest request => some request.id
  | _ => none

def MessageContentBlock.asToolResponse : MessageContentBlock → Option ToolResponse
  | .toolResponse response => some response
  | _ => none

open MessageContentBlock (asToolResponse requestId)

namespace Message

def isAssistant (message : Message) : Bool :=
  message.role = .assistant

def requestIds (message : Message) : List String :=
  message.content.filterMap requestId

def responses (message : Message) : List ToolResponse :=
  message.content.filterMap asToolResponse

def responseIds (message : Message) : List String :=
  message.responses.map ToolResponse.id

/-- The texts and images of a message that are not in a result. -/
def items (message : Message) : List ContentItem :=
  message.content.flatMap fun block => block.contentItems host imageFormat message.role

/-- Frontend requests are parsed, and the metadata of a request leaves the id
of its call alone. -/
def KeepsCalls (message : Message) : Prop :=
  (∀ request, .frontendToolRequest request ∈ message.content →
    ∃ toolCall, request.toolCall = .ok toolCall) ∧
  ∀ request, .toolRequest request ∈ message.content →
    ∀ field ∈ request.metadata.getD [], field.1 ≠ "id"

end Message

/-- Assistant messages request, user messages respond, and the responses up to
the next assistant message answer each request of an assistant message once. -/
structure AnsweredInTurns (messages : List Message) : Prop where
  keepsCalls : ∀ message ∈ messages, message.KeepsCalls
  requested : ∀ message ∈ messages, ¬message.isAssistant → message.requestIds = []
  responded : ∀ message ∈ messages, message.isAssistant → message.responses = []
  answered : EveryTurn Message.isAssistant
    (fun message later => (later.flatMap Message.responseIds).Perm message.requestIds) messages

/-- Nothing is answered in front of the first assistant message. -/
structure Exchanged (messages : List Message) : Prop extends AnsweredInTurns messages where
  unasked : (turn Message.isAssistant messages).flatMap Message.responseIds = []

/-- No image follows a result, and in each turn the results come in messages of
their own, ahead of the other messages of the user. -/
structure ResultsFirst (messages : List Message) : Prop where
  noImages : ∀ message ∈ messages, ∀ response ∈ message.responses, response.images = []
  notOnlyImages : ∀ message ∈ messages, message.items host imageFormat ≠ [] →
    ∃ item ∈ message.items host imageFormat, ∀ url, item ≠ .imageUrl url
  alone : ∀ message ∈ messages, message.responses ≠ [] → message.items host imageFormat = []
  ahead : EveryTurn Message.isAssistant
    (fun _ later => later.Pairwise fun earlier message =>
      message.responses ≠ [] → earlier.items host imageFormat = []) messages

variable {message : Message} {rest messages : List Message} {response : ToolResponse}
  {formatted : List SpecMessage} {items : List ContentItem} {content : Content}
  {parts : List (List SpecMessage)}

theorem AnsweredInTurns.tail (exchange : AnsweredInTurns (message :: rest)) :
    AnsweredInTurns rest where
  keepsCalls := (forall_mem_cons.mp exchange.keepsCalls).2
  requested := (forall_mem_cons.mp exchange.requested).2
  responded := (forall_mem_cons.mp exchange.responded).2
  answered := (everyTurn_cons_iff.mp exchange.answered).2

theorem ResultsFirst.tail (first : ResultsFirst host imageFormat (message :: rest)) :
    ResultsFirst host imageFormat rest where
  noImages := (forall_mem_cons.mp first.noImages).2
  notOnlyImages := (forall_mem_cons.mp first.notOnlyImages).2
  alone := (forall_mem_cons.mp first.alone).2
  ahead := (everyTurn_cons_iff.mp first.ahead).2

/-! ## Answered calls -/

namespace SpecMessage

/-- The id under which a message answers a call. -/
def answerIds (message : SpecMessage) : List Json :=
  if message.role = .tool then message.toolCallId.toList.map Json.string else []

end SpecMessage

def AnsweredBy (calls : List ToolCall) (later : List SpecMessage) : Prop :=
  (later.flatMap SpecMessage.answerIds).Perm (calls.map ToolCall.id)

/-- The tool messages up to the next assistant message answer each call once,
and there are no other calls and tool messages. -/
structure Answered (messages : List SpecMessage) : Prop where
  callers : ∀ message ∈ messages, ¬message.isAssistant → message.toolCalls = []
  answered : CallTurns AnsweredBy messages
  unasked : (turn SpecMessage.isAssistant messages).flatMap SpecMessage.answerIds = []

/-- The answers of a call follow it directly. -/
def DirectlyAnswered (messages : List SpecMessage) : Prop :=
  ∀ message rest, message :: rest <:+ messages → message.isAssistant →
    AnsweredBy message.toolCalls (rest.takeWhile SpecMessage.isTool)

/-! ## What is shown -/

namespace SpecMessage

/-- The id of a call and the text of its result. -/
def asResult (message : SpecMessage) : Option (String × String) :=
  match message.role, message.toolCallId, message.content with
  | .tool, some id, some (.text result) => some (id, result)
  | _, _, _ => none

/-- The content of a message that is not a result. -/
def shown (message : SpecMessage) : Option Content :=
  if message.role = .tool ∨ message.hasNoContent then none else message.content

end SpecMessage

/-- Texts alone are shown one below the other. -/
def Shows (items : List ContentItem) : Content → Prop
  | .null => False
  | .text shown => ∃ texts : List String, items = texts.map ContentItem.text ∧
      shown = "\n".intercalate texts
  | .items shown => shown = items

namespace Message

/-- The texts and images of a message, followed by the images of its results. -/
def shownItems (message : Message) : List (List ContentItem) :=
  (if message.items host imageFormat = [] then [] else [message.items host imageFormat]) ++
    (message.responses.flatMap ToolResponse.images).map fun image =>
      [convertImage image imageFormat]

def calls (message : Message) : List ToolCall :=
  message.content.filterMap (MessageContentBlock.toolCall host)

def results (message : Message) : List (String × String) :=
  message.responses.map fun response => (response.id, response.text host)

end Message

/-- Each call and each result occurs once and in its order, and each text and
image in the content of one message. -/
structure Complete (messages : List Message) (formatted : List SpecMessage) : Prop where
  calls : formatted.flatMap SpecMessage.toolCalls = messages.flatMap (Message.calls host)
  results : formatted.filterMap SpecMessage.asResult = messages.flatMap (Message.results host)
  contents : List.Forall₂ Shows (messages.flatMap (Message.shownItems host imageFormat))
    (formatted.filterMap SpecMessage.shown)

/-! ## What a message becomes -/

variable {host imageFormat}

/-- The message with the content and the calls, if it has any. -/
def payload (host : Host) (imageFormat : ImageFormat) (message : Message)
    (reasoningContent : Option String) : List SpecMessage :=
  if (convert host imageFormat message).hasPayload then
    [{ convert host imageFormat message with reasoningContent }]
  else []

def FormattedAs (host : Host) (imageFormat : ImageFormat) (message : Message)
    (formatted : List SpecMessage) : Prop :=
  ∃ reasoning, formatted = payload host imageFormat message reasoning ++
    message.responses.flatMap (responseMessages host imageFormat)

theorem flatMap_output (host : Host) (imageFormat : ImageFormat) (keeps : message.KeepsCalls) :
    message.content.flatMap (output host imageFormat) =
      message.responses.flatMap (responseMessages host imageFormat) := by
  obtain ⟨parsed, -⟩ := keeps
  rw [Message.responses]
  generalize message.content = content at parsed ⊢
  induction content with
  | nil => rfl
  | cons block content ih =>
    have others := ih fun request member => parsed request (mem_cons_of_mem _ member)
    rw [flatMap_cons, others]
    cases block with
    | toolResponse response =>
      simp [output, asToolResponse]
    | frontendToolRequest request =>
      obtain ⟨toolCall, isCall⟩ := parsed request mem_cons_self
      simp [output, asToolResponse, isCall, filterMap_cons]
    | _ =>
      simp [output, asToolResponse, filterMap_cons]

theorem formattedAs_formatMessage (options : OpenAiFormatOptions) (state : FormatState)
    (keeps : message.KeepsCalls) : FormattedAs host imageFormat message
      (formatMessage host imageFormat options state message).2 := by
  have same := flatMap_output host imageFormat keeps
  unfold FormattedAs payload
  simp only [formatMessage]
  split_ifs <;> simp_all

/-- Every message of a formatted history comes from one message. -/
theorem exists_parts (host : Host) (imageFormat : ImageFormat) (options : OpenAiFormatOptions)
    (keeps : ∀ message ∈ messages, message.KeepsCalls) (state : FormatState) :
    ∃ parts, Forall₂ (FormattedAs host imageFormat) messages parts ∧
      formatEach host imageFormat options state messages = parts.flatten := by
  induction messages generalizing state with
  | nil => exact ⟨[], .nil, rfl⟩
  | cons message rest ih =>
    rw [forall_mem_cons] at keeps
    obtain ⟨parts, sides, equal⟩ :=
      ih keeps.2 (formatMessage host imageFormat options state message).1
    refine ⟨_ :: parts, .cons (formattedAs_formatMessage options state keeps.1) sides, ?_⟩
    rw [formatEach, equal, flatten_cons]

/-! ## Roles -/

theorem role_of_mem_payload {reasoning : Option String} {converted : SpecMessage}
    (member : converted ∈ payload host imageFormat message reasoning) :
    converted.role = specRole message.role := by
  unfold payload at member
  split_ifs at member
  · rw [mem_singleton] at member
    rw [member]
    rfl
  · simp at member

theorem mem_responseMessages {message : SpecMessage} :
    message ∈ responseMessages host imageFormat response ↔
      message = toolMessage response.id (response.text host) ∨
        ∃ image ∈ response.images, message = imageMessage imageFormat image := by
  simp [responseMessages, eq_comm]

theorem not_isAssistant_of_mem_responseMessages {message : SpecMessage}
    (member : message ∈ responseMessages host imageFormat response) : ¬message.isAssistant := by
  rcases mem_responseMessages.mp member with rfl | ⟨image, -, rfl⟩
  · simp [toolMessage, SpecMessage.isAssistant]
  · simp [imageMessage, SpecMessage.isAssistant]

theorem FormattedAs.not_isAssistant (isFormatted : FormattedAs host imageFormat message formatted)
    (isUser : ¬message.isAssistant) : ∀ converted ∈ formatted, ¬converted.isAssistant := by
  obtain ⟨reasoning, rfl⟩ := isFormatted
  intro converted member
  rcases mem_append.mp member with first | later
  · have sameRole := role_of_mem_payload first
    cases role : message.role with
    | user => simp [SpecMessage.isAssistant, sameRole, role, specRole]
    | assistant => simp [Message.isAssistant, role] at isUser
  · obtain ⟨response, -, member⟩ := mem_flatMap.mp later
    exact not_isAssistant_of_mem_responseMessages member

/-! ## Calls and answers -/

theorem toolCalls_payload (message : Message) (reasoning : Option String) :
    (payload host imageFormat message reasoning).flatMap SpecMessage.toolCalls =
      message.calls host := by
  unfold payload
  split_ifs with hasPayload
  · simp [convert, Message.calls]
  · simp only [SpecMessage.hasPayload, Bool.or_eq_true, not_or] at hasPayload
    have noCalls := hasPayload.2
    simp only [Bool.not_eq_true', Bool.not_eq_false, List.isEmpty_iff] at noCalls
    exact noCalls.symm

theorem toolCalls_responseMessages (responses : List ToolResponse) :
    (responses.flatMap (responseMessages host imageFormat)).flatMap SpecMessage.toolCalls = [] := by
  rw [flatMap_eq_nil_iff]
  intro message member
  obtain ⟨response, -, member⟩ := mem_flatMap.mp member
  rcases mem_responseMessages.mp member with rfl | ⟨image, -, rfl⟩ <;> rfl

theorem FormattedAs.toolCalls (isFormatted : FormattedAs host imageFormat message formatted) :
    formatted.flatMap SpecMessage.toolCalls = message.calls host := by
  obtain ⟨reasoning, rfl⟩ := isFormatted
  rw [flatMap_append, toolCalls_payload, toolCalls_responseMessages, append_nil]

theorem answerIds_payload (message : Message) (reasoning : Option String) :
    (payload host imageFormat message reasoning).flatMap SpecMessage.answerIds = [] := by
  rw [flatMap_eq_nil_iff]
  intro converted member
  have role := role_of_mem_payload member
  cases isRole : message.role <;> simp [SpecMessage.answerIds, role, isRole, specRole]

theorem answerIds_responseMessages (response : ToolResponse) :
    (responseMessages host imageFormat response).flatMap SpecMessage.answerIds =
      [Json.string response.id] := by
  have silent : (response.images.map (imageMessage imageFormat)).flatMap
      SpecMessage.answerIds = [] := by
    simp [flatMap_eq_nil_iff, SpecMessage.answerIds, imageMessage]
  rw [responseMessages, flatMap_cons, silent]
  rfl

theorem FormattedAs.answerIds (isFormatted : FormattedAs host imageFormat message formatted) :
    formatted.flatMap SpecMessage.answerIds = message.responseIds.map Json.string := by
  obtain ⟨reasoning, rfl⟩ := isFormatted
  rw [flatMap_append, answerIds_payload, flatMap_assoc]
  simp only [answerIds_responseMessages, Message.responseIds, map_map]
  exact map_eq_flatMap.symm

theorem ToolCall.set_id {call : ToolCall} {key : String} (other : key ≠ "id") (value : Json) :
    (call.set key value).id = call.id := by
  unfold ToolCall.set
  rw [if_neg other]
  split_ifs <;> rfl

/-- Metadata that leaves the id alone. -/
theorem foldl_set_id {fields : List (String × Json)} (others : ∀ field ∈ fields, field.1 ≠ "id")
    (call : ToolCall) :
    (fields.foldl (fun call field => call.set field.1 field.2) call).id = call.id := by
  induction fields generalizing call with
  | nil => rfl
  | cons field fields ih =>
    rw [forall_mem_cons] at others
    rw [foldl_cons, ih others.2, ToolCall.set_id others.1]

theorem requestCall_id (host : Host) {request : ToolRequest}
    (keeps : ∀ field ∈ request.metadata.getD [], field.1 ≠ "id") :
    (requestCall host request).id = .string request.id := by
  unfold requestCall
  split
  · rw [foldl_set_id keeps]
    rfl
  · rfl

theorem calls_ids (host : Host) (keeps : message.KeepsCalls) :
    (message.calls host).map ToolCall.id = message.requestIds.map Json.string := by
  obtain ⟨parsed, keeps⟩ := keeps
  rw [Message.calls, Message.requestIds]
  generalize message.content = content at parsed keeps ⊢
  induction content with
  | nil => rfl
  | cons block content ih =>
    have others := ih (fun request member => parsed request (mem_cons_of_mem _ member))
      (fun request member => keeps request (mem_cons_of_mem _ member))
    cases block with
    | toolRequest request =>
      have sameId := requestCall_id host (keeps request mem_cons_self)
      simp [MessageContentBlock.toolCall, requestId, others, sameId]
    | frontendToolRequest request =>
      obtain ⟨toolCall, isCall⟩ := parsed request mem_cons_self
      simp [MessageContentBlock.toolCall, requestId, others, isCall,
        functionCall]
    | _ =>
      simpa [filterMap_cons, MessageContentBlock.toolCall,
        requestId] using others

/-! ## Results and contents -/

theorem results_payload (message : Message) (reasoning : Option String) :
    (payload host imageFormat message reasoning).filterMap SpecMessage.asResult = [] := by
  rw [filterMap_eq_nil_iff]
  intro converted member
  have role := role_of_mem_payload member
  cases isRole : message.role <;> simp [SpecMessage.asResult, role, isRole, specRole]

theorem results_responseMessages (response : ToolResponse) :
    (responseMessages host imageFormat response).filterMap SpecMessage.asResult =
      [(response.id, response.text host)] := by
  have silent : (response.images.map (imageMessage imageFormat)).filterMap
      SpecMessage.asResult = [] := by
    simp [filterMap_eq_nil_iff, SpecMessage.asResult, imageMessage]
  rw [responseMessages, filterMap_cons, silent]
  rfl

theorem FormattedAs.results (isFormatted : FormattedAs host imageFormat message formatted) :
    formatted.filterMap SpecMessage.asResult = message.results host := by
  obtain ⟨reasoning, rfl⟩ := isFormatted
  rw [filterMap_append, results_payload, filterMap_flatMap]
  simp only [results_responseMessages]
  exact map_eq_flatMap.symm

theorem convertImage_ne_text (imageFormat : ImageFormat) (image : ImageContent) (text : String) :
    convertImage image imageFormat ≠ .text text := by
  cases imageFormat <;> simp [convertImage]

theorem text_ne_empty_of_mem_contentItems {role : Role} {block : MessageContentBlock}
    {text : String} (member : .text text ∈ block.contentItems host imageFormat role) :
    text ≠ "" := by
  have noImage := fun image => convertImage_ne_text imageFormat image text
  unfold contentItems at member
  cases block with
  | text content =>
    simp only at member
    split_ifs at member with isEmpty isUser
    · simp at member
    · have same : text = content := by
        cases loaded : host.loadImage content with
        | none => simpa [loaded] using member
        | some image => simpa [loaded, (noImage image).symm] using member
      simpa [same] using isEmpty
    · have same : text = content := by simpa using member
      simpa [same] using isEmpty
  | image img =>
    split_ifs at member with isUser
    · exact absurd (mem_singleton.mp member).symm (noImage img)
    · simp only [mem_singleton, ContentItem.text.injEq] at member
      simp [member]
  | _ => simp at member

theorem intercalate_ne_empty {separator : String} {texts : List String} (isSome : texts ≠ [])
    (nonempty : ∀ text ∈ texts, text ≠ "") : separator.intercalate texts ≠ "" := by
  cases texts with
  | nil => exact absurd rfl isSome
  | cons first texts =>
    have firstNonempty := nonempty first mem_cons_self
    cases texts with
    | nil => simpa using firstNonempty
    | cons second texts =>
      simp [firstNonempty]

theorem exists_texts (allTexts : ∀ item ∈ items, item.asText ≠ none) :
    items = (items.filterMap ContentItem.asText).map ContentItem.text := by
  induction items with
  | nil => rfl
  | cons item items ih =>
    rw [forall_mem_cons] at allTexts
    cases item with
    | text content =>
      have rest := ih allTexts.2
      exact congrArg (ContentItem.text content :: ·) rest
    | imageUrl url => exact absurd rfl allTexts.1
    | image mediaType data => exact absurd rfl allTexts.1

/-- The texts and images of a message make one content. -/
theorem exists_contentOf (isSome : items ≠ []) (nonempty : ∀ text, .text text ∈ items → text ≠ "") :
    ∃ content, contentOf items = some content ∧ Shows items content ∧
      content ≠ .text "" ∧ content ≠ .items [] := by
  unfold contentOf
  rw [if_neg (by simpa using isSome)]
  split_ifs with hasImage
  · exact ⟨_, rfl, rfl, nofun, by simpa using isSome⟩
  · have allTexts : ∀ item ∈ items, item.asText ≠ none := by simpa using hasImage
    have texts := exists_texts allTexts
    refine ⟨_, rfl, ⟨_, texts, rfl⟩, ?_, nofun⟩
    have shown : "\n".intercalate (items.filterMap ContentItem.asText) ≠ "" := by
      apply intercalate_ne_empty
      · intro noTexts
        rw [noTexts] at texts
        exact isSome texts
      · intro text member
        apply nonempty
        rw [texts]
        exact mem_map_of_mem member
    simpa using shown

theorem shown_of_content {message : SpecMessage} (follows : message.role ≠ .tool)
    (hasContent : message.content = some content) (notNull : content ≠ .null)
    (notEmpty : content ≠ .text "") (hasItems : content ≠ .items []) :
    message.shown = some content := by
  have isShown : ¬message.hasNoContent := by
    rw [SpecMessage.hasNoContent, hasContent]
    cases content with
    | null => exact absurd rfl notNull
    | text text => simpa using notEmpty
    | items items => simpa using hasItems
  simp [SpecMessage.shown, follows, isShown, hasContent]

theorem convert_content_of_items
    (isContent : contentOf (message.items host imageFormat) = some content) :
    (convert host imageFormat message).content = some content := by
  rw [Message.items] at isContent
  simp [convert, isContent]

theorem items_of_convert_content
    (hasItems : (convert host imageFormat message).content = some (.items items)) :
    message.items host imageFormat = items := by
  rw [Message.items]
  simp only [convert, contentOf] at hasItems
  split_ifs at hasItems <;> simp_all

theorem convert_hasNoContent (noItems : message.items host imageFormat = [])
    (reasoningContent : Option String) :
    SpecMessage.hasNoContent { convert host imageFormat message with reasoningContent } := by
  rw [Message.items] at noItems
  simp only [convert, noItems]
  split_ifs <;> rfl

/-- A message with texts or images shows them in one content. -/
theorem shown_payload (message : Message) (reasoning : Option String) : Forall₂ Shows
      (if message.items host imageFormat = [] then [] else [message.items host imageFormat])
      ((payload host imageFormat message reasoning).filterMap SpecMessage.shown) := by
  by_cases noItems : message.items host imageFormat = []
  · have nothing :
        (payload host imageFormat message reasoning).filterMap SpecMessage.shown = [] := by
      rw [filterMap_eq_nil_iff]
      intro converted member
      unfold payload at member
      split_ifs at member
      · rw [mem_singleton] at member
        rw [SpecMessage.shown, member, if_pos (Or.inr (convert_hasNoContent noItems reasoning))]
      · simp at member
    rw [if_pos noItems, nothing]
    exact .nil
  · obtain ⟨content, isContent, shows, notEmpty, hasItems⟩ :=
      exists_contentOf noItems fun text member => by
        obtain ⟨block, -, member⟩ := mem_flatMap.mp member
        exact text_ne_empty_of_mem_contentItems member
    have converted := convert_content_of_items isContent
    have notNull : content ≠ .null := by
      rintro rfl
      exact shows
    have notTool : specRole message.role ≠ .tool := by
      cases message.role <;> simp [specRole]
    have hasPayload : (convert host imageFormat message).hasPayload := by
      simp [SpecMessage.hasPayload, converted]
    have isShown : SpecMessage.shown
        { convert host imageFormat message with reasoningContent := reasoning } = some content :=
      shown_of_content notTool converted notNull notEmpty hasItems
    rw [if_neg noItems, payload, if_pos hasPayload, filterMap_cons_some isShown]
    exact .cons shows .nil

theorem shown_responseMessages (response : ToolResponse) :
    Forall₂ Shows (response.images.map fun image => [convertImage image imageFormat])
      ((responseMessages host imageFormat response).filterMap SpecMessage.shown) := by
  have result : SpecMessage.shown (toolMessage response.id (response.text host)) = none := by
    simp [SpecMessage.shown, toolMessage]
  have images : (response.images.map (imageMessage imageFormat)).filterMap SpecMessage.shown =
      response.images.map fun image => Content.items [convertImage image imageFormat] := by
    rw [filterMap_map, ← filterMap_eq_map]
    apply filterMap_congr
    simp [SpecMessage.shown, imageMessage, SpecMessage.hasNoContent]
  rw [responseMessages, filterMap_cons_none result, images, forall₂_map_left_iff,
    forall₂_map_right_iff, forall₂_same]
  exact fun image _ => rfl

theorem FormattedAs.shown (isFormatted : FormattedAs host imageFormat message formatted) :
    Forall₂ Shows (message.shownItems host imageFormat)
      (formatted.filterMap SpecMessage.shown) := by
  obtain ⟨reasoning, rfl⟩ := isFormatted
  rw [filterMap_append]
  refine rel_append (shown_payload message reasoning) ?_
  induction message.responses with
  | nil => exact .nil
  | cons response responses ih =>
    rw [flatMap_cons, flatMap_cons, map_append, filterMap_append]
    exact rel_append (shown_responseMessages response) ih

/-! ## Turns -/

theorem calls_eq_nil_iff (host : Host) (keeps : message.KeepsCalls) :
    message.calls host = [] ↔ message.requestIds = [] := by
  have same := calls_ids host keeps
  rw [← map_eq_nil_iff (f := ToolCall.id), same, map_eq_nil_iff]

/-- An assistant message gives at most one message, with all its calls. -/
theorem FormattedAs.eq_of_isAssistant (isFormatted : FormattedAs host imageFormat message formatted)
    (isAssistant : message.isAssistant) (noResponses : message.responses = []) :
    formatted = [] ∧ message.calls host = [] ∨
      ∃ converted, formatted = [converted] ∧ converted.isAssistant ∧
        converted.toolCalls = message.calls host := by
  have calls := isFormatted.toolCalls
  obtain ⟨reasoning, rfl⟩ := isFormatted
  rw [noResponses] at calls ⊢
  unfold payload at calls ⊢
  split_ifs at calls ⊢
  · refine Or.inr ⟨_, rfl, ?_, rfl⟩
    have role : message.role = .assistant := by simpa [Message.isAssistant] using isAssistant
    simp [SpecMessage.isAssistant, convert, role, specRole]
  · exact Or.inl ⟨rfl, calls.symm⟩

/-- The turns of the messages are the turns of their parts. -/
theorem answers_of_parts (sides : Forall₂ (FormattedAs host imageFormat) messages parts)
    (exchange : AnsweredInTurns messages) : CallTurns AnsweredBy parts.flatten ∧
      (turn SpecMessage.isAssistant parts.flatten).flatMap SpecMessage.answerIds =
        ((turn Message.isAssistant messages).flatMap Message.responseIds).map Json.string := by
  induction sides with
  | nil => exact ⟨everyTurn_nil, rfl⟩
  | @cons message formatted messages parts isFormatted sides ih =>
    obtain ⟨turns, answers⟩ := ih exchange.tail
    have keeps := exchange.keepsCalls message mem_cons_self
    rw [flatten_cons]
    by_cases isAssistant : message.isAssistant
    · have responded := exchange.responded message mem_cons_self isAssistant
      have requests := calls_ids host keeps
      have answered := (everyTurn_cons_iff.mp exchange.answered).1 isAssistant
      rw [turn_cons_of_opens isAssistant]
      rcases isFormatted.eq_of_isAssistant isAssistant responded with
        ⟨rfl, noCalls⟩ | ⟨converted, rfl, opens, sameCalls⟩
      · -- The message leaves nothing, so its turn continues the turn before it.
        rw [(calls_eq_nil_iff host keeps).mp noCalls, perm_nil] at answered
        rw [nil_append, answers, answered]
        exact ⟨turns, rfl⟩
      · rw [singleton_append, turn_cons_of_opens opens]
        refine ⟨?_, rfl⟩
        rw [CallTurns, everyTurn_cons_iff]
        refine ⟨fun _ => ?_, turns⟩
        rw [AnsweredBy, answers, sameCalls, requests]
        exact answered.map Json.string
    · have follow := isFormatted.not_isAssistant isAssistant
      rw [turn_append follow, turn_cons_of_not_opens isAssistant, CallTurns,
        everyTurn_append_iff follow]
      refine ⟨turns, ?_⟩
      rw [flatMap_append, isFormatted.answerIds, answers, flatMap_cons, map_append]

/-! ## Results ahead -/

/-- No tool message stands behind another message. -/
def ToolsAhead (later : List SpecMessage) : Prop :=
  later.Pairwise fun earlier message => message.role = .tool → earlier.role = .tool

theorem FormattedAs.responds (isFormatted : FormattedAs host imageFormat message formatted)
    {result : SpecMessage} (member : result ∈ formatted) (isTool : result.role = .tool) :
    result.answerIds ≠ [] ∧ message.responses ≠ [] := by
  obtain ⟨reasoning, rfl⟩ := isFormatted
  rcases mem_append.mp member with first | later
  · have role := role_of_mem_payload first
    cases isRole : message.role <;> simp [role, isRole, specRole] at isTool
  · obtain ⟨response, responded, member⟩ := mem_flatMap.mp later
    refine ⟨?_, ne_nil_of_mem responded⟩
    rcases mem_responseMessages.mp member with rfl | ⟨image, -, rfl⟩
    · simp [SpecMessage.answerIds, toolMessage]
    · simp [imageMessage] at isTool

/-- A message of a user that is not a result has texts or images, where no image
follows a result. -/
theorem FormattedAs.items_ne_nil (isFormatted : FormattedAs host imageFormat message formatted)
    (noRequests : message.calls host = [])
    (noImages : ∀ response ∈ message.responses, response.images = []) {other : SpecMessage}
    (member : other ∈ formatted) (notTool : other.role ≠ .tool) :
    message.items host imageFormat ≠ [] := by
  obtain ⟨reasoning, rfl⟩ := isFormatted
  rcases mem_append.mp member with first | later
  · intro noItems
    rw [Message.calls] at noRequests
    rw [Message.items] at noItems
    simp [payload, SpecMessage.hasPayload, convert, noRequests, noItems, contentOf] at first
  · obtain ⟨response, responded, member⟩ := mem_flatMap.mp later
    rcases mem_responseMessages.mp member with rfl | ⟨image, hasImage, -⟩
    · exact absurd rfl notTool
    · simp [noImages response responded] at hasImage

theorem toolsAhead_of_parts (sides : Forall₂ (FormattedAs host imageFormat) messages parts)
    (exchange : AnsweredInTurns messages) (first : ResultsFirst host imageFormat messages) :
    CallTurns (fun _ => ToolsAhead) parts.flatten ∧
      ((turn Message.isAssistant messages).Pairwise (fun earlier message =>
        message.responses ≠ [] → earlier.items host imageFormat = []) →
        ToolsAhead (turn SpecMessage.isAssistant parts.flatten)) := by
  induction sides with
  | nil => exact ⟨everyTurn_nil, fun _ => Pairwise.nil⟩
  | @cons message formatted messages parts isFormatted sides ih =>
    obtain ⟨turns, ahead⟩ := ih exchange.tail first.tail
    have keeps := exchange.keepsCalls message mem_cons_self
    have answers := (answers_of_parts sides exchange.tail).2
    rw [flatten_cons]
    by_cases isAssistant : message.isAssistant
    · have responded := exchange.responded message mem_cons_self isAssistant
      have aheadHere := ahead ((everyTurn_cons_iff.mp first.ahead).1 isAssistant)
      rcases isFormatted.eq_of_isAssistant isAssistant responded with
        ⟨rfl, -⟩ | ⟨converted, rfl, opens, -⟩
      · exact ⟨turns, fun _ => aheadHere⟩
      · rw [singleton_append, turn_cons_of_opens opens, CallTurns, everyTurn_cons_iff]
        exact ⟨⟨fun _ => aheadHere, turns⟩, fun _ => Pairwise.nil⟩
    · have follow := isFormatted.not_isAssistant isAssistant
      have noCalls := (calls_eq_nil_iff host keeps).mpr
        (exchange.requested message mem_cons_self isAssistant)
      have noImages := first.noImages message mem_cons_self
      rw [turn_append follow, turn_cons_of_not_opens isAssistant, CallTurns,
        everyTurn_append_iff follow, pairwise_cons]
      refine ⟨turns, fun inTurn => pairwise_append.mpr ⟨?_, ahead inTurn.2, ?_⟩⟩
      · apply pairwise_of_forall_mem_list
        intro other isOther result isResult isTool
        by_contra notTool
        have alone := first.alone message mem_cons_self (isFormatted.responds isResult isTool).2
        exact isFormatted.items_ne_nil noCalls noImages isOther notTool alone
      · intro other isOther result inLater isTool
        by_contra notTool
        have hasItems := isFormatted.items_ne_nil noCalls noImages isOther notTool
        obtain ⟨part, isPart, inPart⟩ := mem_flatten.mp (mem_of_mem_turn inLater)
        obtain ⟨source, -, isSource⟩ := exists_left_of_forall₂ sides isPart
        have noAnswers :
            (turn Message.isAssistant messages).flatMap Message.responseIds = [] := by
          rw [flatMap_eq_nil_iff]
          intro later isLater
          by_contra responds
          refine hasItems (inTurn.1 later isLater fun none => responds ?_)
          rw [Message.responseIds, none, map_nil]
        rw [noAnswers, map_nil, flatMap_eq_nil_iff] at answers
        exact (isSource.responds inPart isTool).1 (answers result inLater)

/-! ## Histories -/

theorem continues_answeredBy : Continues AnsweredBy := by
  intro calls more result images later isResult imageOnly here there
  rw [AnsweredBy, flatMap_append, map_append]
  exact here.append there

/-- Results stay ahead where no message is made of images alone. -/
theorem continues_toolsAhead : Continues fun _ later =>
    ToolsAhead later ∧ ∀ message ∈ later, ¬message.isImageOnlyUserMessage := by
  intro calls more result images later isResult imageOnly here there
  have noImages : images = [] := by
    rw [eq_nil_iff_forall_not_mem]
    intro image member
    exact here.2 image (mem_cons_of_mem result member) (imageOnly image member)
  subst noImages
  refine ⟨pairwise_cons.mpr ⟨fun _ _ _ => isResult, there.1⟩, ?_⟩
  intro message member
  rcases mem_cons.mp member with rfl | inLater
  · exact here.2 message mem_cons_self
  · exact there.2 message inLater

section

variable (sides : List.Forall₂ (FormattedAs host imageFormat) messages parts)
include sides

theorem callers_of_parts (exchange : AnsweredInTurns messages) :
    ∀ converted ∈ parts.flatten, ¬converted.isAssistant → converted.toolCalls = [] := by
  intro converted member notAssistant
  obtain ⟨part, isPart, inPart⟩ := mem_flatten.mp member
  obtain ⟨message, isMessage, isFormatted⟩ := exists_left_of_forall₂ sides isPart
  by_cases isAssistant : message.isAssistant
  · rcases isFormatted.eq_of_isAssistant isAssistant
      (exchange.responded message isMessage isAssistant) with ⟨rfl, -⟩ | ⟨only, rfl, opens, -⟩
    · simp at inPart
    · rw [mem_singleton] at inPart
      exact absurd (inPart ▸ opens) notAssistant
  · have noCalls := (calls_eq_nil_iff host (exchange.keepsCalls message isMessage)).mpr
      (exchange.requested message isMessage isAssistant)
    rw [← isFormatted.toolCalls, flatMap_eq_nil_iff] at noCalls
    exact noCalls converted inPart

theorem not_isImageOnly_of_parts (first : ResultsFirst host imageFormat messages) :
    ∀ converted ∈ parts.flatten, ¬converted.isImageOnlyUserMessage := by
  intro converted member
  obtain ⟨part, isPart, inPart⟩ := mem_flatten.mp member
  obtain ⟨message, isMessage, ⟨reasoning, rfl⟩⟩ := exists_left_of_forall₂ sides isPart
  intro imageOnly
  obtain ⟨isUser, items, hasItems, isSome, allImages⟩ :=
    SpecMessage.exists_items_of_isImageOnly imageOnly
  rcases mem_append.mp inPart with own | later
  · unfold payload at own
    split_ifs at own
    · rw [mem_singleton] at own
      subst own
      have same := items_of_convert_content hasItems
      obtain ⟨item, isItem, notImage⟩ := first.notOnlyImages message isMessage (same ▸ isSome)
      obtain ⟨url, isUrl⟩ := allImages item (same ▸ isItem)
      exact notImage url isUrl
    · simp at own
  · obtain ⟨response, responded, member⟩ := mem_flatMap.mp later
    rcases mem_responseMessages.mp member with rfl | ⟨image, hasImage, -⟩
    · simp [toolMessage] at isUser
    · simp [first.noImages message isMessage response responded] at hasImage

theorem flatMap_of_parts {β : Type} {before : Message → List β} {after : List SpecMessage → List β}
    (same : ∀ message formatted, FormattedAs host imageFormat message formatted →
      after formatted = before message) : parts.flatMap after = messages.flatMap before := by
  induction sides with
  | nil => rfl
  | cons isFormatted sides ih => rw [flatMap_cons, flatMap_cons, ih, same _ _ isFormatted]

end

theorem answers_takeWhile {later : List SpecMessage} (ahead : ToolsAhead later) :
    (later.takeWhile SpecMessage.isTool).flatMap SpecMessage.answerIds =
      later.flatMap SpecMessage.answerIds := by
  induction later with
  | nil => rfl
  | cons message rest ih =>
    obtain ⟨first, others⟩ := pairwise_cons.mp ahead
    by_cases isTool : message.role = .tool
    · rw [takeWhile_cons_of_pos (by simpa [SpecMessage.isTool] using isTool),
        flatMap_cons, flatMap_cons, ih others]
    · have silent : (message :: rest).flatMap SpecMessage.answerIds = [] := by
        rw [flatMap_eq_nil_iff, forall_mem_cons]
        refine ⟨if_neg isTool, fun other member => if_neg fun otherTool => ?_⟩
        exact isTool (first other member otherTool)
      rw [takeWhile_cons_of_neg (by simpa [SpecMessage.isTool] using isTool), silent]
      rfl

theorem takeWhile_isTool_turn (messages : List SpecMessage) :
    (turn SpecMessage.isAssistant messages).takeWhile SpecMessage.isTool =
      messages.takeWhile SpecMessage.isTool := by
  rw [turn, takeWhile_takeWhile]
  apply congrArg (fun taken => takeWhile taken messages)
  funext message
  cases role : message.role <;> simp [SpecMessage.isTool, SpecMessage.isAssistant, role]

theorem directlyAnswered_of_toolsAhead {messages : List SpecMessage}
    (answered : CallTurns AnsweredBy messages)
    (ahead : CallTurns (fun _ later =>
      ToolsAhead later ∧ ∀ message ∈ later, ¬message.isImageOnlyUserMessage) messages) :
    DirectlyAnswered messages := by
  intro message rest suffix isAssistant
  have here := answered message rest suffix isAssistant
  have resultsAhead := (ahead message rest suffix isAssistant).1
  rw [AnsweredBy, ← takeWhile_isTool_turn, answers_takeWhile resultsAhead]
  exact here

theorem contents_of_parts (sides : Forall₂ (FormattedAs host imageFormat) messages parts) :
    Forall₂ Shows (messages.flatMap (Message.shownItems host imageFormat))
      (parts.flatten.filterMap SpecMessage.shown) := by
  induction sides with
  | nil => exact .nil
  | cons isFormatted sides ih =>
    rw [flatten_cons, filterMap_append]
    exact rel_append isFormatted.shown ih

/-- A formatted history answers the calls of each assistant message before the
next one, directly where the results come first, and holds everything once. -/
theorem formatMessages_history (host : Host) (imageFormat : ImageFormat)
    {messages : List Message} (exchanged : Exchanged messages) :
    Answered (formatMessages host imageFormat messages) ∧
      Complete host imageFormat messages (formatMessages host imageFormat messages) ∧
      (ResultsFirst host imageFormat messages →
        DirectlyAnswered (formatMessages host imageFormat messages)) := by
  have exchange := exchanged.toAnsweredInTurns
  obtain ⟨parts, sides, equal⟩ := exists_parts host imageFormat
    { preserveThinkingContext := true } exchange.keepsCalls {}
  have merged : formatMessages host imageFormat messages =
      mergeSplitToolCallMessages parts.flatten := by
    rw [← equal]
    rfl
  have callers := callers_of_parts sides exchange
  obtain ⟨turns, answers⟩ := answers_of_parts sides exchange
  have answered := turns.mergeSplit continues_answeredBy
  rw [merged]
  refine ⟨⟨?_, answered, ?_⟩, ⟨?_, ?_, ?_⟩, ?_⟩
  · intro message member notAssistant
    rcases mem_of_mem_mergeSplit member with isAssistant | inParts
    · exact absurd isAssistant notAssistant
    · exact callers message inParts notAssistant
  · rw [turn_mergeSplit, answers, exchanged.unasked, map_nil]
  · rw [toolCalls_mergeSplit callers, flatten_eq_flatMap, flatMap_assoc]
    exact flatMap_of_parts sides fun _ _ isFormatted => isFormatted.toolCalls
  · rw [filterMap_mergeSplit, filterMap_flatten]
    · exact flatMap_of_parts sides fun _ _ isFormatted => isFormatted.results
    · intro message toolCalls
      rfl
    · simp_all [SpecMessage.asResult, SpecMessage.isAssistant]
  · rw [filterMap_mergeSplit]
    · exact contents_of_parts sides
    · intro message toolCalls
      rfl
    · intro message _ noContent
      exact if_pos (Or.inr noContent)
  · intro first
    have notOnly := not_isImageOnly_of_parts sides first
    have ahead : CallTurns (fun _ later =>
        ToolsAhead later ∧ ∀ message ∈ later, ¬message.isImageOnlyUserMessage) parts.flatten := by
      intro message rest suffix isAssistant
      refine ⟨(toolsAhead_of_parts sides exchange first).1 message rest suffix isAssistant, ?_⟩
      intro other inTurn
      exact notOnly other (suffix.mem (mem_cons_of_mem message (mem_of_mem_turn inTurn)))
    exact directlyAnswered_of_toolsAhead answered (ahead.mergeSplit continues_toolsAhead)

def plainHost : Host where
  conversation := { timestamp := 0, nfc := id, decodeBase64 := fun _ => none }
  toJsonText := fun _ => none
  loadImage := fun _ => none

/-- Two calls of one response, stored in parts, the first of which is unparseable. -/
def splitHistory : List Message :=
  [{ role := .assistant
     content := [.thinking "plan",
      .toolRequest { id := "a", toolCall := .error "cut off", metadata := none }] },
   { role := .user, content := [.toolResponse { id := "a", toolResult := .error "cut off" }] },
   { role := .assistant
     content := [.thinking "plan", .toolRequest
      { id := "b", toolCall := .ok { name := "read", arguments := none }, metadata := none }] },
   { role := .user
     content := [.toolResponse { id := "b", toolResult := .ok [.text "one", .text "two"] }] }]

theorem formatMessages_history_splitHistory :
    Answered (formatMessages plainHost .openAi splitHistory) ∧
      Complete plainHost .openAi splitHistory (formatMessages plainHost .openAi splitHistory) ∧
      DirectlyAnswered (formatMessages plainHost .openAi splitHistory) := by
  have exchanged : Exchanged splitHistory := by
    refine ⟨⟨?_, ?_, ?_, ?_⟩, ?_⟩
    · simp [splitHistory, Message.KeepsCalls]
    · simp [splitHistory, Message.isAssistant, Message.requestIds, requestId]
    · simp [splitHistory, Message.isAssistant, Message.responses,
        asToolResponse]
    · simp [splitHistory, everyTurn_cons_iff, turn, Message.isAssistant, Message.requestIds,
        requestId, Message.responseIds, Message.responses,
        asToolResponse, filterMap_cons]
    · simp [splitHistory, turn, Message.isAssistant]
  have first : ResultsFirst plainHost .openAi splitHistory := by
    constructor
    · simp [splitHistory, Message.responses, asToolResponse,
        ToolResponse.images, ContentBlock.asImage]
    · simp [splitHistory, Message.items, contentItems]
    · simp [splitHistory, Message.items, contentItems]
    · simp [splitHistory, everyTurn_cons_iff, turn, Message.isAssistant]
  obtain ⟨answered, complete, direct⟩ := formatMessages_history plainHost .openAi exchanged
  exact ⟨answered, complete, direct first⟩

def picture : ImageContent where
  data := "iVBORw0KGgo="
  mimeType := "image/png"

/-- An image of the assistant, a result with an image, and a text between results. -/
def mixedHistory : List Message :=
  [{ role := .assistant
     content := [.image picture,
      .toolRequest { id := "a", toolCall := .error "cut off", metadata := none },
      .toolRequest { id := "b", toolCall := .error "cut off", metadata := none }] },
   { role := .user
     content := [
      .toolResponse { id := "a", toolResult := .ok [.image { picture with data := "" }] },
      .text "so far", .toolResponse { id := "b", toolResult := .ok [.text "done"] }] }]

theorem formatMessages_mixedHistory : formatMessages plainHost .openAi mixedHistory =
      [{ role := .assistant
         content := some (.text "[Image content removed - not supported in assistant messages]")
         toolCalls := [functionCall "a" "unparseable_tool_call" "{}",
          functionCall "b" "unparseable_tool_call" "{}"] },
       { role := .user, content := some (.text "so far") },
       toolMessage "a" "This tool result included an image that is uploaded in the next message.",
       imageMessage .openAi { picture with data := "" },
       toolMessage "b" "done"] := by
  simp [formatMessages, formatMessagesWithOptions, formatEach, mixedHistory, formatMessage,
    FormatState.atMessage, convert, SpecMessage.hasPayload, contentOf,
    contentItems, MessageContentBlock.toolCall, filterMap_cons,
    requestCall, output, responseMessages, ToolResponse.text,
    ToolResponse.images, ContentBlock.asImage, ContentBlock.resultText,
    mergeSplitToolCallMessages, specRole, ContentItem.asText, plainHost, Message.hasToolResponse,
    MessageContentBlock.thought, toolMessage, imageMessage, String.join]

/-- The calls are not answered directly, and the image of the assistant is left out. -/
theorem not_directlyAnswered_mixedHistory : Exchanged mixedHistory ∧
      ¬DirectlyAnswered (formatMessages plainHost .openAi mixedHistory) ∧
      ∀ message ∈ formatMessages plainHost .openAi mixedHistory, ∀ items,
        message.content = some (.items items) → convertImage picture .openAi ∉ items := by
  refine ⟨⟨⟨?_, ?_, ?_, ?_⟩, ?_⟩, ?_, ?_⟩
  · simp [mixedHistory, Message.KeepsCalls]
  · simp [mixedHistory, Message.isAssistant, Message.requestIds, requestId]
  · simp [mixedHistory, Message.isAssistant, Message.responses, asToolResponse]
  · simp [mixedHistory, everyTurn_cons_iff, turn, Message.isAssistant, Message.requestIds,
      requestId, Message.responseIds, Message.responses,
      asToolResponse, filterMap_cons]
  · simp [mixedHistory, turn, Message.isAssistant]
  · intro direct
    rw [formatMessages_mixedHistory] at direct
    have answers := direct _ _ suffix_rfl rfl
    simp [AnsweredBy, SpecMessage.isTool, functionCall] at answers
  · rw [formatMessages_mixedHistory]
    simp [toolMessage, imageMessage, convertImage, picture]

end Obelus.Formats.OpenAi
