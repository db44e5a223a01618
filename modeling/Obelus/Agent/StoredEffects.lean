import Mathlib.Data.List.Infix
import Mathlib.Data.List.Sort
import Obelus.Agent.Operations

/-!
# The stored session

The messages of a session are rows in the order of their row ids.  They are read
in the order of their creation times and, within one time, of their row ids.
The effects of a step are applied to the rows.
-/

namespace Obelus.Agent

variable {ι : Type}

structure Session (ι : Type) where
  rows : List (Message ι)
  recipe : Option (Recipe ι)
  extensionData : ι
  deriving DecidableEq

/-- `ORDER BY created_timestamp, id`. -/
def readingOrder (rows : List (Message ι)) : List (Message ι) :=
  rows.insertionSort fun earlier later => earlier.created ≤ later.created

def Session.conversation (session : Session ι) : List (Message ι) :=
  readingOrder session.rows

/-- Messages without an id get a new one, `newMessageId` for the place of a row. -/
def Message.ensureId (newMessageId : String) (message : Message ι) : Message ι :=
  { message with id := some (message.id.getD newMessageId) }

section Rows

variable (newMessageId : Nat → String)

/-- `add_message`: a message never moves ahead of the stored ones. -/
def addMessage (message : Message ι) (rows : List (Message ι)) : List (Message ι) :=
  let created := match (rows.map Message.created).max? with
    | some latest => max message.created latest
    | none => message.created
  rows ++ [{ message.ensureId (newMessageId rows.length) with created }]

/-- `replace_conversation`, which takes the creation times as they are. -/
def replaceConversation (conversation : List (Message ι)) : List (Message ι) :=
  conversation.zipIdx.map fun entry => entry.1.ensureId (newMessageId entry.2)

end Rows

def ToolRequest.patched (executable : Bool) (request : ToolRequest ι) : ToolRequest ι :=
  { request with
    toolMeta := some
      { executable := some executable
        fields := (request.toolMeta.map ToolMeta.fields).getD [] } }

def isRequestOf (toolCallId : String) : MessageContent ι → Bool
  | .toolRequest request => request.id = toolCallId
  | _ => false

def Message.containsToolRequest (toolCallId : String) (message : Message ι) : Bool :=
  message.content.any (isRequestOf toolCallId)

/-- The first request with the id is patched. -/
def patchContent (toolCallId : String) (executable : Bool) :
    List (MessageContent ι) → List (MessageContent ι)
  | [] => []
  | block :: rest =>
    match block with
    | .toolRequest request =>
      if request.id = toolCallId then .toolRequest (request.patched executable) :: rest
      else .toolRequest request :: patchContent toolCallId executable rest
    | other => other :: patchContent toolCallId executable rest

/-- `update_tool_request_meta_by_message_id`: of the rows with the message id the
first one that has the request. -/
def updateToolRequestMetaByMessageId (messageId toolCallId : String) (executable : Bool) :
    List (Message ι) → List (Message ι)
  | [] => []
  | row :: rest =>
    if row.id = some messageId ∧ row.containsToolRequest toolCallId then
      { row with content := patchContent toolCallId executable row.content } :: rest
    else row :: updateToolRequestMetaByMessageId messageId toolCallId executable rest

/-- The number of rows in which a tool request is looked for. -/
def toolRequestRowLimit : Nat := 100

/-- `update_tool_request_meta`: nothing happens when the latest rows do not have
the request. -/
def updateToolRequestMeta (toolCallId : String) (executable : Bool) (rows : List (Message ι)) :
    List (Message ι) :=
  match (rows.reverse.take toolRequestRowLimit).find? (Message.containsToolRequest toolCallId) with
  | none => rows
  | some row =>
    match row.id with
    | none => rows
    | some messageId => updateToolRequestMetaByMessageId messageId toolCallId executable rows

/-- `update_message_metadata`: the metadata of the first row with the id, changed,
becomes that of all of them. -/
def updateMessageMetadata (messageId : String) (change : MessageMetadata → MessageMetadata)
    (rows : List (Message ι)) : Except String (List (Message ι)) :=
  match rows.find? fun row => row.id = some messageId with
  | none => .error "no rows returned by a query that expected to return at least one row"
  | some row =>
    .ok (rows.map fun other =>
      if other.id = some messageId then { other with metadata := change row.metadata }
      else other)

def applyEffect (newMessageId : Nat → String) (session : Session ι) :
    StateEffect ι → Except String (Session ι)
  | .appendMessage message =>
    .ok { session with rows := addMessage newMessageId message session.rows }
  | .replaceConversation conversation _ =>
    .ok { session with rows := replaceConversation newMessageId conversation }
  | .patchToolRequestMeta toolCallId executable =>
    .ok { session with rows := updateToolRequestMeta toolCallId executable session.rows }
  | .setMessageVisibility messageId userVisible agentVisible => do
    let rows ← updateMessageMetadata messageId
      (fun metadata => { metadata with userVisible, agentVisible }) session.rows
    return { session with rows }
  | .setRecipe recipe => .ok { session with recipe }
  | .setExtensionData extensionData => .ok { session with extensionData }
  | .recordUsage _ => .ok session

/-- `StateMachine::apply`: the first effect that cannot be applied ends the run, and
the effects before it stay. -/
def applyEffects (newMessageId : Nat → String) (session : Session ι) :
    List (StateEffect ι) → Session ι × Option String
  | [] => (session, none)
  | effect :: rest =>
    match applyEffect newMessageId session effect with
    | .ok changed => applyEffects newMessageId changed rest
    | .error error => (session, some error)

/-!
## Stored effects

How the conversation reads once effects are applied to the stored session: appended messages
stand behind it, and a message whose visibility changes keeps its place.
-/

open List

variable {ι : Type}

variable {message latest stored kickoff : Message ι} {newMessageId : Nat → String}
  {session : Session ι} {change : Message ι → Message ι}
  {conversation turn rest before : List (Message ι)}

variable (rows : List (Message ι)) (toolCallId : String) (executable : Bool)

theorem orderedInsert_append_of_le (isLatest : message.created ≤ latest.created) :
    (rows ++ [latest]).orderedInsert (fun a b => a.created ≤ b.created) message =
      rows.orderedInsert (fun a b => a.created ≤ b.created) message ++ [latest] := by
  induction rows with
  | nil => simp [isLatest]
  | cons row rest ih =>
    rw [cons_append, orderedInsert_cons, orderedInsert_cons]
    split
    · rfl
    · rw [ih, cons_append]

/-- A row that is not older than the others is read last. -/
theorem readingOrder_append {rows : List (Message ι)}
    (isLatest : ∀ row ∈ rows, row.created ≤ latest.created) :
    readingOrder (rows ++ [latest]) = readingOrder rows ++ [latest] := by
  induction rows with
  | nil => rfl
  | cons row rest ih =>
    have later := ih fun other isIn => isLatest other (.tail _ isIn)
    rw [readingOrder] at later
    rw [cons_append, readingOrder, insertionSort_cons, later,
      orderedInsert_append_of_le _ (isLatest row (.head _))]
    rfl

/-- A message as it is stored: its id and its creation time may be new. -/
def StoredAs (message stored : Message ι) : Prop :=
  stored.role = message.role ∧ stored.content = message.content ∧
    stored.metadata = message.metadata

theorem exists_addMessage (newMessageId : Nat → String) (message : Message ι)
    (rows : List (Message ι)) : ∃ stored, StoredAs message stored ∧
      stored.id = some (message.id.getD (newMessageId rows.length)) ∧
      readingOrder (addMessage newMessageId message rows) = readingOrder rows ++ [stored] := by
  refine ⟨_, ⟨?_, ?_, ?_⟩, ?_, readingOrder_append ?_⟩
  · rfl
  · rfl
  · rfl
  · rfl
  · intro row isIn
    have isTime : row.created ∈ rows.map Message.created := mem_map_of_mem isIn
    cases isMax : (rows.map Message.created).max? with
    | none =>
      rw [max?_eq_none_iff] at isMax
      rw [isMax] at isTime
      cases isTime
    | some latest =>
      have isLe := (max?_eq_some_iff.mp isMax).2 row.created isTime
      exact isLe.trans (le_max_right _ _)

theorem StoredAs.isKickoff_eq (isStored : StoredAs message stored) :
    isKickoff stored = isKickoff message := by
  obtain ⟨sameRole, sameContent, sameMetadata⟩ := isStored
  rw [isKickoff, isKickoff, sameRole, sameMetadata, Message.isToolResponse,
    Message.isToolResponse, sameContent]

theorem StoredAs.toolRequests (isStored : StoredAs message stored) :
    stored.toolRequests = message.toolRequests := by
  rw [Message.toolRequests, isStored.2.1]
  rfl

theorem StoredAs.toolResponses (isStored : StoredAs message stored) :
    stored.toolResponses = message.toolResponses := by
  rw [Message.toolResponses, isStored.2.1]
  rfl

def effectsOf (result : OperationResult ι) : List (StateEffect ι) :=
  (result.map StepResult.effects).getD []

theorem applyEffects_append {changed : Session ι} {first : List (StateEffect ι)}
    (second : List (StateEffect ι))
    (applies : applyEffects newMessageId session first = (changed, none)) :
    applyEffects newMessageId session (first ++ second) =
      applyEffects newMessageId changed second := by
  induction first generalizing session with
  | nil =>
    cases applies
    rfl
  | cons effect rest ih =>
    rw [cons_append, applyEffects]
    rw [applyEffects] at applies
    cases isApplied : applyEffect newMessageId session effect with
    | ok next =>
      rw [isApplied] at applies
      exact ih applies
    | error error =>
      rw [isApplied] at applies
      cases applies

/-- Rows that keep their creation times keep their places. -/
theorem readingOrder_map (sameTime : ∀ message, (change message).created = message.created)
    (rows : List (Message ι)) : readingOrder (rows.map change) = (readingOrder rows).map change :=
  (map_insertionSort _ _ change rows fun first _ second _ => by
    rw [sameTime, sameTime]).symm

/-- The messages are read in the order of their creation times. -/
theorem pairwise_readingOrder :
    (readingOrder rows).Pairwise fun earlier later => earlier.created ≤ later.created := by
  exact pairwise_insertionSort _ rows

/-- A conversation of stored messages that is in order replaces the rows as it is. -/
theorem conversation_replaceConversation (hasIds : ∀ message ∈ conversation, message.id.isSome)
    (inOrder : conversation.Pairwise fun earlier later => earlier.created ≤ later.created) :
    ({ session with rows := replaceConversation newMessageId conversation }).conversation =
      conversation := by
  have sameRows : replaceConversation newMessageId conversation = conversation := by
    refine (map_congr_left (g := Prod.fst) fun entry isIn => ?_).trans (zipIdx_map_fst ..)
    obtain ⟨id, isId⟩ := Option.isSome_iff_exists.mp (hasIds entry.1 (fst_mem_of_mem_zipIdx isIn))
    rw [Message.ensureId, isId, Option.getD_some, ← isId]
  rw [Session.conversation, sameRows, readingOrder, inOrder.insertionSort_eq]

/-- The visibility of a message whose id no other message has. -/
theorem exists_setMessageVisibility (newMessageId : Nat → String) (session : Session ι)
    (message : Message ι) (id : String) (userVisible agentVisible : Bool)
    (isIn : message ∈ session.conversation) (hasId : message.id = some id)
    (only : ∀ other ∈ session.conversation, other.id = some id → other = message) : ∃ changed,
      applyEffect newMessageId session (.setMessageVisibility id userVisible agentVisible) =
        .ok changed ∧
      changed.rows.length = session.rows.length ∧
      changed.conversation = session.conversation.map fun other =>
        if other.id = some id then other.withVisibility userVisible agentVisible else other := by
  simp only [Session.conversation, readingOrder, mem_insertionSort] at isIn only
  cases isFound : session.rows.find? fun row => row.id = some id with
  | none =>
    have noRow := find?_eq_none.mp isFound message isIn
    simp [hasId] at noRow
  | some row =>
    have isRow : row = message :=
      only row (mem_of_find?_eq_some isFound) (by simpa using find?_some isFound)
    subst isRow
    refine ⟨{ session with rows := session.rows.map (fun other : Message ι =>
      if other.id = some id then other.withVisibility userVisible agentVisible else other) },
      ?_, length_map _, readingOrder_map (fun other => ?_) _⟩
    · rw [applyEffect, updateMessageMetadata, isFound]
      refine congrArg Except.ok ?_
      refine congrArg (fun rows => { session with rows }) (map_congr_left ?_)
      intro other isOther
      split
      · next sameId => rw [only other isOther sameId, Message.withVisibility]
      · rfl
    · split <;> rfl

theorem fromKickoff_append (first second : List (Message ι)) : fromKickoff (first ++ second) =
      match fromKickoff second with
      | some turn => some turn
      | none => (fromKickoff first).map (· ++ second) := by
  induction first with
  | nil => cases isTurn : fromKickoff second <;> simp [fromKickoff, isTurn]
  | cons message rest ih =>
    rw [cons_append, fromKickoff, ih, fromKickoff]
    cases fromKickoff second with
    | some turn => rfl
    | none =>
      cases fromKickoff rest with
      | some turn => rfl
      | none =>
        cases isKickoff message <;> rfl

theorem suffix_of_fromKickoff (isTurn : fromKickoff conversation = some turn) :
    turn <:+ conversation := by
  induction conversation generalizing turn with
  | nil => cases isTurn
  | cons message rest ih =>
    rw [fromKickoff] at isTurn
    cases isLater : fromKickoff rest with
    | some later =>
      rw [isLater, Option.some.injEq] at isTurn
      exact (isTurn ▸ ih isLater).trans (suffix_cons _ _)
    | none =>
      rw [isLater] at isTurn
      dsimp only at isTurn
      split at isTurn
      · cases isTurn
        exact suffix_rfl
      · cases isTurn

theorem isKickoff_of_fromKickoff (isTurn : fromKickoff conversation = some (kickoff :: rest)) :
    isKickoff kickoff = true := by
  induction conversation with
  | nil => cases isTurn
  | cons message later ih =>
    rw [fromKickoff] at isTurn
    cases isLater : fromKickoff later with
    | some turn => exact ih (isLater.trans (by rwa [isLater] at isTurn))
    | none =>
      rw [isLater] at isTurn
      dsimp only at isTurn
      split at isTurn
      · next isFirst =>
        cases isTurn
        exact isFirst
      · cases isTurn

theorem fromKickoff_of_messagesSinceKickoff
    (isKickoff : messagesSinceKickoff conversation = .ok turn) :
    fromKickoff conversation = some turn := by
  rw [messagesSinceKickoff] at isKickoff
  split at isKickoff
  · next turn isTurn =>
    cases isKickoff
    exact isTurn
  · cases isKickoff

def beforeKickoff (conversation : List (Message ι)) : List (Message ι) :=
  conversation.take (conversation.length - ((fromKickoff conversation).getD []).length)

theorem append_fromKickoff (isTurn : fromKickoff conversation = some turn) :
    beforeKickoff conversation ++ turn = conversation := by
  obtain ⟨before, rfl⟩ := suffix_of_fromKickoff isTurn
  simp [beforeKickoff, isTurn]

theorem beforeKickoff_append (isTurn : fromKickoff (before ++ turn) = some turn) :
    beforeKickoff (before ++ turn) = before := by
  simp [beforeKickoff, isTurn]

theorem fromKickoff_map (sameKickoff : ∀ message, isKickoff (change message) = isKickoff message)
    (conversation : List (Message ι)) :
    fromKickoff (conversation.map change) = (fromKickoff conversation).map (map change) := by
  induction conversation with
  | nil => rfl
  | cons message rest ih =>
    rw [map_cons, fromKickoff, fromKickoff, ih, sameKickoff]
    cases fromKickoff rest with
    | some turn => rfl
    | none => cases isKickoff message <;> rfl

theorem fromKickoff_eq_none {messages : List (Message ι)}
    (noKickoff : ∀ message ∈ messages, isKickoff message = false) :
    fromKickoff messages = none := by
  induction messages with
  | nil => rfl
  | cons message rest ih =>
    rw [fromKickoff, ih fun other isIn => noKickoff other (.tail _ isIn),
      noKickoff message (.head _)]
    rfl

/-- The last kickoff. -/
theorem fromKickoff_of_split (isFirst : isKickoff kickoff = true)
    (noKickoff : ∀ message ∈ rest, isKickoff message = false) :
    fromKickoff (before ++ kickoff :: rest) = some (kickoff :: rest) := by
  rw [fromKickoff_append, fromKickoff, fromKickoff_eq_none noKickoff]
  simp [isFirst]

/-- The block without the mark that says whether a request may be executed. -/
def MessageContent.unmarked : MessageContent ι → MessageContent ι
  | .toolRequest request => .toolRequest { request with toolMeta := none }
  | block => block

def Message.unmarked (message : Message ι) : Message ι :=
  { message with content := message.content.map MessageContent.unmarked }

@[simp]
theorem Message.isToolResponse_unmarked (message : Message ι) :
    message.unmarked.isToolResponse = message.isToolResponse := by
  have sameBlock : ∀ block : MessageContent ι,
      block.unmarked.isToolResponse = block.isToolResponse := by
    intro block
    cases block <;> rfl
  simp [isToolResponse, unmarked, Function.comp_def, sameBlock]

@[simp]
theorem Message.asConcatText_unmarked (message : Message ι) :
    message.unmarked.asConcatText = message.asConcatText := by
  have sameText : ∀ block : MessageContent ι, block.unmarked.asText = block.asText := by
    intro block
    cases block <;> rfl
  simp [asConcatText, unmarked, filterMap_map, sameText]

@[simp]
theorem isKickoff_unmarked (message : Message ι) :
    isKickoff message.unmarked = isKickoff message := by
  rw [isKickoff, Message.isToolResponse_unmarked]
  rfl

theorem unmarked_patchContent (content : List (MessageContent ι)) :
    (patchContent toolCallId executable content).map MessageContent.unmarked =
      content.map MessageContent.unmarked := by
  induction content with
  | nil => rfl
  | cons block rest ih =>
    cases block with
    | toolRequest request =>
      rw [patchContent]
      split
      · rfl
      · rw [map_cons, map_cons, ih]
    | _ => exact congrArg (_ :: ·) ih

/-- A mark changes nothing else. -/
theorem unmarked_updateToolRequestMeta (rows : List (Message ι)) :
    (updateToolRequestMeta toolCallId executable rows).map Message.unmarked =
      rows.map Message.unmarked := by
  have byMessage : ∀ messageId,
      (updateToolRequestMetaByMessageId messageId toolCallId executable rows).map
        Message.unmarked = rows.map Message.unmarked := by
    intro messageId
    induction rows with
    | nil => rfl
    | cons row rest ih =>
      rw [updateToolRequestMetaByMessageId]
      split
      · rw [map_cons, Message.unmarked, unmarked_patchContent]
        rfl
      · rw [map_cons, map_cons, ih]
  rw [updateToolRequestMeta]
  split
  · rfl
  · split
    · rfl
    · exact byMessage _

theorem unmarked_readingOrder :
    (readingOrder rows).map Message.unmarked = readingOrder (rows.map Message.unmarked) := by
  rw [readingOrder_map]
  exact fun _ => rfl

end Obelus.Agent
