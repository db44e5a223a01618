import Obelus.Data.Parts
import Obelus.Formats.OpenAi.Core

/-!
# Histories in the format of the Responses API

How the messages of a conversation become the input items of a request.  Texts
and images are collected until a call, a result or the end of the message.
-/

namespace Obelus.Formats.OpenAi.Responses

open List
open Obelus.Conversation (Role)
open Obelus.Data (Exchange)
open Obelus.Data.Exchange (calls AnsweredOnce Asked)

structure InputMessage extends Message where
  agentVisible : Bool

inductive ContentPart
  | inputText (text : String)
  | outputText (text : String)
  | inputImage (imageUrl : String)

inductive Output
  | text (text : String)
  | parts (parts : List ContentPart)

inductive InputItem
  | message (role : Role) (content : List ContentPart)
  | functionCall (callId name arguments : String)
  | functionCallOutput (callId : String) (output : Output)

variable (host : Host)

def imagePart (image : ImageContent) : ContentPart :=
  .inputImage ("data:" ++ image.mimeType ++ ";base64," ++ image.data)

def textPart (role : Role) (text : String) : ContentPart :=
  if role = .assistant then .outputText text else .inputText text

/-- A block of a result next to an image. -/
def resultPart : ContentBlock → ContentPart
  | .text content => .inputText content
  | .resource contents =>
    .inputText (Conversation.extractTextFromResource host.conversation contents)
  | .image img => imagePart img
  | .audio => .inputText "[Audio content]"
  | .resourceLink => .inputText "[Resource link]"

/-- A block of a result without images. -/
def resultText : ContentBlock → Option String
  | .text content => some content
  | .resource contents =>
    some (Conversation.extractTextFromResource host.conversation contents)
  | .audio => some "[Audio content]"
  | .resourceLink => some "[Resource link]"
  | .image _ => none

def resultOutput (content : List ContentBlock) : Output :=
  if content.any fun block => block.asImage.isSome then .parts (content.map (resultPart host))
  else .text ("\n".intercalate (content.filterMap (resultText host)))

/-- A request that could not be parsed becomes a result. -/
def requestItem (id : String) (toolCall : Except String CallToolRequestParams) : InputItem :=
  match toolCall with
  | .ok call =>
    .functionCall id (sanitizeFunctionName call.name) (argumentsText host call.arguments)
  | .error failure => .functionCallOutput id (.text ("Error: " ++ failure))

def responseItem (response : ToolResponse) : InputItem :=
  match response.toolResult with
  | .ok content => .functionCallOutput response.id (resultOutput host content)
  | .error failure => .functionCallOutput response.id (.text ("Error: " ++ failure))

structure ItemState where
  inputItems : List InputItem
  textItems : List ContentPart

/-- The collected texts and images become an item. -/
def ItemState.flush (role : Role) (state : ItemState) : ItemState :=
  if state.textItems.isEmpty then state
  else
    { inputItems := state.inputItems ++ [.message role state.textItems]
      textItems := [] }

def ItemState.push (item : InputItem) (state : ItemState) : ItemState :=
  { state with inputItems := state.inputItems ++ [item] }

def ItemState.collect (part : ContentPart) (state : ItemState) : ItemState :=
  { state with textItems := state.textItems ++ [part] }

/-- The body of the loop over the blocks of a message. -/
def addContent (role : Role) (state : ItemState) : MessageContentBlock → ItemState
  | .text content =>
    if content.isEmpty then state else state.collect (textPart role content)
  | .toolRequest request =>
    if role = .assistant then
      (state.flush role).push (requestItem host request.id request.toolCall)
    else state
  | .image img => state.collect (imagePart img)
  | .toolResponse response => (state.flush role).push (responseItem host response)
  | .frontendToolRequest request =>
    (state.flush role).push (requestItem host request.id request.toolCall)
  | _ => state

/-- The body of the loop over the messages. -/
def addMessage (inputItems : List InputItem) (message : InputMessage) : List InputItem :=
  ((message.content.foldl (addContent host message.role)
    { inputItems, textItems := [] }).flush message.role).inputItems

def visible (messages : List InputMessage) : List InputMessage :=
  messages.filter fun message => message.agentVisible

def addMessageItems (inputItems : List InputItem) (messages : List InputMessage) :
    List InputItem :=
  (visible messages).foldl (addMessage host) inputItems

def blockExchange : MessageContentBlock → Option (Exchange String)
  | .toolRequest request => some (.call request.id)
  | .frontendToolRequest request => some (.call request.id)
  | .toolResponse response => some (.answer response.id)
  | _ => none

/-- The blocks of the messages with the roles of their messages. -/
def blocks (messages : List InputMessage) : List (Role × MessageContentBlock) :=
  messages.flatMap fun message => message.content.map (Prod.mk message.role)

/-- The requests and responses of the messages. -/
def history (messages : List InputMessage) : List (Exchange String) :=
  (blocks messages).filterMap fun entry => blockExchange entry.2

/-- The text of a block, when it is not empty, or its image. -/
def blockParts (entry : Role × MessageContentBlock) : List ContentPart :=
  match entry.2 with
  | .text content => if content.isEmpty then [] else [textPart entry.1 content]
  | .image img => [imagePart img]
  | _ => []

namespace InputItem

def exchange : InputItem → Option (Exchange String)
  | .message _ _ => none
  | .functionCall id _ _ => some (.call id)
  | .functionCallOutput id _ => some (.answer id)

def parts : InputItem → List ContentPart
  | .message _ content => content
  | _ => []

end InputItem

/-- The calls and outputs among items. -/
def itemLog (items : List InputItem) : List (Exchange String) :=
  items.filterMap InputItem.exchange

/-- The items have a call for each request and, after it, its only output, have no
other outputs, and show the texts and images in their order. -/
structure PairsCalls (messages : List InputMessage) (items : List InputItem) : Prop where
  called : (calls (itemLog items)).Perm (calls (history messages))
  answered : AnsweredOnce (itemLog items)
  asked : Asked (itemLog items)
  shown : items.flatMap InputItem.parts = (blocks messages).flatMap blockParts

/-- Requests are parsed, and those that the model makes are in its messages. -/
def ParsedRequest (entry : Role × MessageContentBlock) : Prop :=
  match entry.2 with
  | .toolRequest request =>
    entry.1 = .assistant ∧ ∃ toolCall, request.toolCall = .ok toolCall
  | .frontendToolRequest request => ∃ toolCall, request.toolCall = .ok toolCall
  | _ => True

/-- What the loop adds for a call or a result. -/
def blockItem (entry : Role × MessageContentBlock) : Option InputItem :=
  match entry.2 with
  | .toolRequest request =>
    if entry.1 = .assistant then some (requestItem host request.id request.toolCall) else none
  | .toolResponse response => some (responseItem host response)
  | .frontendToolRequest request => some (requestItem host request.id request.toolCall)
  | _ => none

theorem parts_requestItem (id : String) (toolCall : Except String CallToolRequestParams) :
    (requestItem host id toolCall).parts = [] := by
  cases toolCall <;> rfl

variable (response : ToolResponse) (inputItems : List InputItem) (messages : List InputMessage)

theorem exchange_responseItem :
    (responseItem host response).exchange = some (.answer response.id) := by
  unfold responseItem
  cases response.toolResult <;> rfl

theorem parts_responseItem : (responseItem host response).parts = [] := by
  unfold responseItem
  cases response.toolResult <;> rfl

namespace ItemState

/-- The texts and images of the items and of those that are collected. -/
def shown (state : ItemState) : List ContentPart :=
  state.inputItems.flatMap InputItem.parts ++ state.textItems

variable (role : Role) (state : ItemState)

@[simp]
theorem flush_textItems : (state.flush role).textItems = [] := by
  unfold flush
  split
  · next isEmpty => exact isEmpty_iff.mp isEmpty
  · rfl

@[simp]
theorem log_flush : itemLog (state.flush role).inputItems = itemLog state.inputItems := by
  unfold flush
  split
  · rfl
  · simp [itemLog, InputItem.exchange]

@[simp]
theorem shown_flush : (state.flush role).shown = state.shown := by
  unfold flush
  split
  · rfl
  · simp [shown, InputItem.parts]

theorem shown_push {item : InputItem} {state : ItemState} (noParts : item.parts = [])
    (flushed : state.textItems = []) : (state.push item).shown = state.shown := by
  simp [shown, push, noParts, flushed]

@[simp]
theorem shown_collect (part : ContentPart) (state : ItemState) :
    (state.collect part).shown = state.shown ++ [part] := by
  simp [shown, collect]

end ItemState

theorem log_addContent (role : Role) (state : ItemState) (block : MessageContentBlock) :
    itemLog (addContent host role state block).inputItems =
      itemLog state.inputItems ++
        ((blockItem host (role, block)).bind InputItem.exchange).toList := by
  have pushed (item : InputItem) : itemLog ((state.flush role).push item).inputItems =
      itemLog state.inputItems ++ item.exchange.toList := by
    have flushed := ItemState.log_flush role state
    simp only [itemLog] at flushed ⊢
    cases found : item.exchange <;> simp [ItemState.push, flushed, found]
  cases block with
  | text content =>
    by_cases isEmpty : content = "" <;>
      simp [addContent, blockItem, ItemState.collect, isEmpty]
  | image img => simp [addContent, blockItem, ItemState.collect]
  | toolRequest request =>
    by_cases isAssistant : role = .assistant
    · subst isAssistant
      simp [addContent, blockItem, pushed]
    · simp [addContent, blockItem, isAssistant]
  | toolResponse response => simp [addContent, blockItem, pushed]
  | frontendToolRequest request => simp [addContent, blockItem, pushed]
  | _ => simp [addContent, blockItem]

theorem shown_addContent (role : Role) (state : ItemState) (block : MessageContentBlock) :
    (addContent host role state block).shown = state.shown ++ blockParts (role, block) := by
  have pushed (item : InputItem) (noParts : item.parts = []) :
      ((state.flush role).push item).shown = state.shown := by
    rw [ItemState.shown_push noParts (state.flush_textItems role), ItemState.shown_flush]
  cases block with
  | text content =>
    by_cases isEmpty : content = "" <;> simp [addContent, blockParts, isEmpty]
  | image img => simp [addContent, blockParts]
  | toolRequest request =>
    have kept := pushed _ (parts_requestItem host request.id request.toolCall)
    by_cases isAssistant : role = .assistant
    · subst isAssistant
      simp [addContent, blockParts, kept]
    · simp [addContent, blockParts, isAssistant]
  | toolResponse response =>
    simp [addContent, blockParts, pushed _ (parts_responseItem host _)]
  | frontendToolRequest request =>
    simp [addContent, blockParts, pushed _ (parts_requestItem host _ _)]
  | _ => simp [addContent, blockParts]

/-- The calls and results that the items are to have. -/
def replayed (messages : List InputMessage) : List (Exchange String) :=
  (blocks messages).filterMap fun entry => (blockItem host entry).bind InputItem.exchange

theorem addMessage_spec (message : InputMessage) : itemLog (addMessage host inputItems message) =
        itemLog inputItems ++ replayed host [message] ∧
      (addMessage host inputItems message).flatMap InputItem.parts =
        inputItems.flatMap InputItem.parts ++ (blocks [message]).flatMap blockParts := by
  have loop (content : List MessageContentBlock) (state : ItemState) :
      itemLog (content.foldl (addContent host message.role) state).inputItems =
          itemLog state.inputItems ++ (content.map (Prod.mk message.role)).filterMap
            (fun entry => (blockItem host entry).bind InputItem.exchange) ∧
        (content.foldl (addContent host message.role) state).shown =
          state.shown ++ (content.map (Prod.mk message.role)).flatMap blockParts := by
    induction content generalizing state with
    | nil => simp
    | cons block rest ih =>
      obtain ⟨logged, shown⟩ := ih (addContent host message.role state block)
      rw [foldl_cons, logged, shown, log_addContent, shown_addContent]
      cases found : (blockItem host (message.role, block)).bind InputItem.exchange <;>
        simp [found]
  obtain ⟨logged, shown⟩ := loop message.content { inputItems, textItems := [] }
  constructor
  · rw [addMessage, ItemState.log_flush, logged]
    simp [replayed, blocks]
  · have flushed := ItemState.shown_flush message.role
      (message.content.foldl (addContent host message.role) { inputItems, textItems := [] })
    rw [shown] at flushed
    simpa [ItemState.shown, addMessage, blocks] using flushed

theorem addMessageItems_spec : itemLog (addMessageItems host inputItems messages) =
        itemLog inputItems ++ replayed host (visible messages) ∧
      (addMessageItems host inputItems messages).flatMap InputItem.parts =
        inputItems.flatMap InputItem.parts ++ (blocks (visible messages)).flatMap blockParts := by
  unfold addMessageItems
  induction visible messages generalizing inputItems with
  | nil => simp [replayed, blocks]
  | cons message rest ih =>
    obtain ⟨logged, shown⟩ := ih (addMessage host inputItems message)
    obtain ⟨logs, shows⟩ := addMessage_spec host inputItems message
    rw [foldl_cons, logged, shown, logs, shows]
    simp [replayed, blocks]

/-- The call of a request, if the block is replayed as a call. -/
theorem replayed_of_parsedRequest {entry : Role × MessageContentBlock}
    (parsed : ParsedRequest entry) :
    (blockItem host entry).bind InputItem.exchange = blockExchange entry.2 := by
  obtain ⟨role, block⟩ := entry
  cases block with
  | toolRequest request =>
    obtain ⟨rfl, toolCall, found⟩ := parsed
    simp [blockItem, blockExchange, requestItem, found, InputItem.exchange]
  | toolResponse response => simp [blockItem, blockExchange, exchange_responseItem]
  | frontendToolRequest request =>
    obtain ⟨toolCall, found⟩ := parsed
    simp [blockItem, blockExchange, requestItem, found, InputItem.exchange]
  | _ => rfl

def isRequest (entry : Role × MessageContentBlock) : Bool :=
  ((blockExchange entry.2).bind Exchange.asCall).isSome

def isReplayedCall (entry : Role × MessageContentBlock) : Bool :=
  (((blockItem host entry).bind InputItem.exchange).bind Exchange.asCall).isSome

theorem parsedRequest_iff {entry : Role × MessageContentBlock} :
    ParsedRequest entry ↔ (isRequest entry → isReplayedCall host entry) := by
  obtain ⟨role, block⟩ := entry
  cases block with
  | toolRequest request =>
    cases role <;> cases found : request.toolCall <;>
      simp [ParsedRequest, isRequest, isReplayedCall, blockItem, blockExchange, requestItem,
        found, InputItem.exchange, Exchange.asCall]
  | frontendToolRequest request =>
    cases found : request.toolCall <;>
      simp [ParsedRequest, isRequest, isReplayedCall, blockItem, blockExchange, requestItem,
        found, InputItem.exchange, Exchange.asCall]
  | _ => simp [ParsedRequest, isRequest, blockExchange, Exchange.asCall]

theorem isRequest_of_isReplayedCall {entry : Role × MessageContentBlock}
    (isCall : isReplayedCall host entry) : isRequest entry := by
  obtain ⟨role, block⟩ := entry
  cases block <;>
    simp_all [isRequest, isReplayedCall, blockItem, blockExchange, exchange_responseItem,
      Exchange.asCall]

/-- When as many calls are replayed as there are requests, each request is replayed
as a call. -/
theorem parsedRequest_of_length_le {entries : List (Role × MessageContentBlock)}
    (enough : entries.countP isRequest ≤ entries.countP (isReplayedCall host)) :
    ∀ entry ∈ entries, ParsedRequest entry := by
  induction entries with
  | nil => simp
  | cons first rest ih =>
    have fewer : rest.countP (isReplayedCall host) ≤ rest.countP isRequest :=
      countP_mono_left fun entry _ => isRequest_of_isReplayedCall host
    have here : ParsedRequest first := by
      rw [parsedRequest_iff host]
      intro request
      by_contra notCall
      simp only [countP_cons, request, notCall] at enough
      simp at enough
      omega
    have restEnough : rest.countP isRequest ≤ rest.countP (isReplayedCall host) := by
      by_cases request : isRequest first
      · have isCall := (parsedRequest_iff host).mp here request
        simpa [countP_cons, request, isCall] using enough
      · have notCall : ¬isReplayedCall host first :=
          fun isCall => request (isRequest_of_isReplayedCall host isCall)
        simpa [countP_cons, request, notCall] using enough
    exact forall_mem_cons.mpr ⟨here, ih restEnough⟩

theorem length_calls_history :
    (calls (history messages)).length = (blocks messages).countP isRequest := by
  rw [calls, history, filterMap_filterMap, length_filterMap_eq_countP]
  rfl

theorem length_calls_replayed : (calls (replayed host messages)).length =
      (blocks messages).countP (isReplayedCall host) := by
  rw [calls, replayed, filterMap_filterMap, length_filterMap_eq_countP]
  rfl

/-- When each request has one later response, the items pair calls and outputs
exactly if the requests are parsed and each response follows its request. -/
theorem addMessageItems_pairsCalls_iff (messages : List InputMessage)
    (answered : AnsweredOnce (history (visible messages))) :
    PairsCalls (visible messages) (addMessageItems host [] messages) ↔
      (∀ entry ∈ blocks (visible messages), ParsedRequest entry) ∧
        Asked (history (visible messages)) := by
  obtain ⟨logged, shown⟩ := addMessageItems_spec host [] messages
  simp only [itemLog, filterMap_nil, nil_append, flatMap_nil] at logged shown
  have replayed_eq (parsed : ∀ entry ∈ blocks (visible messages), ParsedRequest entry) :
      replayed host (visible messages) = history (visible messages) :=
    filterMap_congr fun entry found => replayed_of_parsedRequest host (parsed entry found)
  constructor
  · intro pairs
    have sameCalls := pairs.called.length_eq
    rw [itemLog, logged, length_calls_history, length_calls_replayed] at sameCalls
    have parsed := parsedRequest_of_length_le host sameCalls.ge
    refine ⟨parsed, ?_⟩
    have asked := pairs.asked
    rwa [itemLog, logged, replayed_eq parsed] at asked
  · rintro ⟨parsed, asked⟩
    have log : itemLog (addMessageItems host [] messages) = history (visible messages) := by
      rw [itemLog, logged, replayed_eq parsed]
    exact
      { called := by rw [log]
        answered := log ▸ answered
        asked := log ▸ asked
        shown }

def bareHost : Host where
  conversation := { timestamp := 0, nfc := id, decodeBase64 := fun _ => none }
  toJsonText := fun _ => none
  loadImage := fun _ => none

/-- A parsed request with its result, next to texts and an image. -/
def answeredHistory : List InputMessage :=
  [{ role := .assistant
     content := [.text "Reading.", .toolRequest
      { id := "a", toolCall := .ok { name := "read", arguments := none }, metadata := none }]
     agentVisible := true },
   { role := .user
     content := [.toolResponse { id := "a", toolResult := .ok [.text "done"] },
      .image { data := "iVBORw0KGgo=", mimeType := "image/png" }]
     agentVisible := true }]

theorem addMessageItems_pairsCalls_answeredHistory :
    PairsCalls (visible answeredHistory) (addMessageItems bareHost [] answeredHistory) := by
  have log : history (visible answeredHistory) = [.call "a", .answer "a"] := by
    simp [history, blocks, visible, answeredHistory, blockExchange]
  refine (addMessageItems_pairsCalls_iff bareHost answeredHistory ?_).mpr ⟨?_, ?_⟩
  · rw [log]
    simp [Exchange.answeredOnce_cons_iff, Exchange.answers, Exchange.asAnswer]
  · simp [blocks, visible, answeredHistory, ParsedRequest]
  · rw [log]
    intro before id after split
    rcases before with - | ⟨first, - | ⟨second, before⟩⟩
    · cases split
    · cases split
      exact mem_singleton_self _
    · simp at split

/-- A request that could not be parsed, and the response to it. -/
def unparsedHistory : List InputMessage :=
  [{ role := .assistant
     content := [.toolRequest { id := "a", toolCall := .error "cut off", metadata := none }]
     agentVisible := true },
   { role := .user
     content := [.toolResponse { id := "a", toolResult := .error "cut off" }]
     agentVisible := true }]

/-- Two outputs and no call. -/
theorem not_pairsCalls_unparsedHistory : AnsweredOnce (history (visible unparsedHistory)) ∧
      addMessageItems bareHost [] unparsedHistory =
        [.functionCallOutput "a" (.text "Error: cut off"),
          .functionCallOutput "a" (.text "Error: cut off")] ∧
      ¬PairsCalls (visible unparsedHistory) (addMessageItems bareHost [] unparsedHistory) := by
  have items : addMessageItems bareHost [] unparsedHistory =
      [.functionCallOutput "a" (.text "Error: cut off"),
        .functionCallOutput "a" (.text "Error: cut off")] := by
    simp [addMessageItems, visible, unparsedHistory, addMessage, addContent, ItemState.flush,
      ItemState.push, requestItem, responseItem]
  refine ⟨?_, items, fun pairs => ?_⟩
  · simp [history, blocks, visible, unparsedHistory, blockExchange,
      Exchange.answeredOnce_cons_iff, Exchange.answers, Exchange.asAnswer]
  · have sameCalls := pairs.called.length_eq
    rw [items] at sameCalls
    simp [itemLog, InputItem.exchange, calls, Exchange.asCall, history, blocks, visible,
      unparsedHistory, blockExchange, filterMap_cons] at sameCalls

end Obelus.Formats.OpenAi.Responses
