import Obelus.Conversation.Repair
import Obelus.Conversation.ToolCalls

/-!
# What the repair keeps

Which messages of a conversation keep content in the passes before neighbours
are merged, told from the conversation alone: from its texts, the kinds of its
blocks, and its tool requests and responses in their order.
-/

namespace Obelus.Conversation

open ToolEvent List
open MessageContentBlock (asText)

/-! ## Tool calls of messages -/

/-- A request of the assistant or a response of the user. -/
def toolEvent : Role → MessageContentBlock → Option ToolEvent
  | .assistant, .toolRequest id => some (.requested id)
  | .user, .toolResponse response => some (.answered response.id)
  | _, _ => none

def contentEvents (role : Role) (content : List MessageContentBlock) : List ToolEvent :=
  content.filterMap (toolEvent role)

def Message.toolEvents (message : Message) : List ToolEvent :=
  contentEvents message.role message.content

def toolEvents (messages : List Message) : List ToolEvent :=
  messages.flatMap Message.toolEvents

@[simp]
theorem toolEvents_cons (message : Message) (rest : List Message) :
    toolEvents (message :: rest) = message.toolEvents ++ toolEvents rest :=
  flatMap_cons

@[simp]
theorem toolEvents_append (front back : List Message) :
    toolEvents (front ++ back) = toolEvents front ++ toolEvents back :=
  flatMap_append

/-! ## Blocks -/

/-- Nothing is left of the text. -/
def isBlankText : Role → MessageContentBlock → Bool
  | .assistant, .text content => trimEnd content.text = ""
  | .user, .text content => content.text = ""
  | _, _ => false

/-- The block is removed from a message that follows the events `before` in a
conversation with the events `all`. -/
def isRemoved (before all : List ToolEvent) : Role → MessageContentBlock → Bool
  | .user, .toolRequest _ => true
  | .user, .toolConfirmationRequest _ => true
  | .user, .thinking _ _ => true
  | .user, .redactedThinking _ => true
  | .user, .toolResponse response => !awaited response.id before
  | .assistant, .toolResponse _ => true
  | .assistant, .frontendToolRequest _ => true
  | .assistant, .toolRequest id => awaited id all
  | _, _ => false

/-- The block is kept, and it is more than an empty text. -/
def stays (before all : List ToolEvent) (role : Role) (block : MessageContentBlock) : Bool :=
  !isBlankText role block && !isRemoved before all role block

def keeping (all before : List ToolEvent) : List Message → List Message
  | [] => []
  | message :: rest =>
    if message.content.any (stays before all message.role) then
      message :: keeping all (before ++ message.toolEvents) rest
    else keeping all (before ++ message.toolEvents) rest

/-- The messages that keep content. -/
def kept (messages : List Message) : List Message :=
  keeping (toolEvents messages) [] messages

/-! ## Texts and tool results -/

/-- The block without the result of a tool, which the repair may complete. -/
def bare : MessageContentBlock → MessageContentBlock
  | .toolResponse response => .toolResponse ⟨response.id, .ok []⟩
  | other => other

/-- The blocks other than texts. -/
def bareBlocks (content : List MessageContentBlock) : List MessageContentBlock :=
  (content.filter fun block => block.asText = none).map bare

theorem bareBlocks_append (front back : List MessageContentBlock) :
    bareBlocks (front ++ back) = bareBlocks front ++ bareBlocks back := by
  simp [bareBlocks]

/-- Some text of the content is not blank. -/
def HasText (role : Role) (content : List MessageContentBlock) : Prop :=
  ∃ text, .text text ∈ content ∧ isBlankText role (.text text) = false

variable {role : Role} {message : Message} {block : MessageContentBlock}
  {pending final : List String} {before all : List ToolEvent} {related : Message → Message → Prop}

theorem hasText_append {front back : List MessageContentBlock} :
    HasText role (front ++ back) ↔ HasText role front ∨ HasText role back := by
  simp only [HasText, mem_append, or_and_right, exists_or]

theorem trimEnd_eq_empty_iff {text : String} :
    trimEnd text = "" ↔ ∀ c ∈ text.toList, Meetings.Validation.isWhitespace c = true := by
  rw [← String.toList_inj, trimEnd, String.toList_ofList]
  exact rdropWhile_eq_nil_iff

variable (content : List MessageContentBlock) (item : MessageContentBlock)
  (merged : List MessageContentBlock) (host : Host) (messages : List Message)

theorem bareBlocks_pushMergingText :
    bareBlocks (pushMergingText content item) = bareBlocks content ++ bareBlocks [item] := by
  unfold pushMergingText
  split
  · rename_i text last lastEq
    obtain ⟨front, rfl⟩ := getLast?_eq_some_iff.mp lastEq
    split
    · simp [bareBlocks, asText]
    · exact bareBlocks_append _ _
  · exact bareBlocks_append _ _

theorem hasText_pushMergingText : HasText .assistant (pushMergingText content item) ↔
      HasText .assistant content ∨ HasText .assistant [item] := by
  unfold pushMergingText
  split
  · rename_i text last lastEq
    obtain ⟨front, rfl⟩ := getLast?_eq_some_iff.mp lastEq
    split
    · have joined : isBlankText .assistant (.text { last with text := last.text ++ text.text }) =
          (isBlankText .assistant (.text last) && isBlankText .assistant (.text text)) := by
        simp only [isBlankText, trimEnd_eq_empty_iff, String.toList_append, forall_mem_append,
          Bool.decide_and]
      rw [dropLast_concat, hasText_append, hasText_append, or_assoc]
      apply or_congr_right
      simp only [HasText, mem_singleton, MessageContentBlock.text.injEq, exists_eq_left,
        joined, Bool.and_eq_false_iff]
    · exact hasText_append
  · exact hasText_append

theorem bareBlocks_merged : bareBlocks (content.foldl pushMergingText merged) =
      bareBlocks merged ++ bareBlocks content := by
  induction content generalizing merged with
  | nil => simp [bareBlocks]
  | cons block rest ih =>
    rw [foldl_cons, ih, bareBlocks_pushMergingText, append_assoc, ← bareBlocks_append,
      singleton_append]

theorem hasText_merged : HasText .assistant (content.foldl pushMergingText merged) ↔
      HasText .assistant merged ∨ HasText .assistant content := by
  induction content generalizing merged with
  | nil => simp [HasText]
  | cons block rest ih =>
    rw [foldl_cons, ih, hasText_pushMergingText, or_assoc, ← hasText_append, singleton_append]

/-- What the first four passes make of a message. -/
def prepare (host : Host) (message : Message) : Message :=
  fixEmptyToolResultsInMessage host (trimAssistantText (mergeTextContentInMessage message))

theorem prepare_of_assistant (role : message.role = .assistant) :
    prepare host message = { message with
      content := ((message.content.foldl pushMergingText []).map trimText).map
        (fixEmptyToolResult host) } := by
  simp [prepare, mergeTextContentInMessage, trimAssistantText, fixEmptyToolResultsInMessage, role]

theorem prepare_of_user (role : message.role = .user) : prepare host message = { message with
      content := message.content.map (fixEmptyToolResult host) } := by
  simp [prepare, mergeTextContentInMessage, trimAssistantText, fixEmptyToolResultsInMessage, role]

theorem prepare_role (message : Message) : (prepare host message).role = message.role := by
  cases role : message.role with
  | user => rw [prepare_of_user host role, role]
  | assistant => rw [prepare_of_assistant host role, role]

theorem prepare_metadata (message : Message) :
    (prepare host message).metadata = message.metadata := by
  cases role : message.role with
  | user => rw [prepare_of_user host role]
  | assistant => rw [prepare_of_assistant host role]

theorem emptyToolResult_eq_some {host : Host} {result : String × List ContentBlock}
    (empty : emptyToolResult host block = some result) :
    block = .toolResponse ⟨result.1, .ok result.2⟩ := by
  unfold emptyToolResult at empty
  split at empty
  · split at empty
    · cases empty
    · cases empty
      rfl
  · cases empty

theorem fixEmptyToolResult_asText (block : MessageContentBlock) :
    (fixEmptyToolResult host block).asText = block.asText := by
  unfold fixEmptyToolResult
  split
  · rename_i id content empty
    rw [emptyToolResult_eq_some empty]
    rfl
  · rfl

theorem bare_fixEmptyToolResult (block : MessageContentBlock) :
    bare (fixEmptyToolResult host block) = bare block := by
  unfold fixEmptyToolResult
  split
  · rename_i id content empty
    rw [emptyToolResult_eq_some empty]
    rfl
  · rfl

theorem trimText_asText_none_iff (block : MessageContentBlock) :
    (trimText block).asText = none ↔ block.asText = none := by
  cases block <;> simp [trimText, asText]

theorem bareBlocks_map {change : MessageContentBlock → MessageContentBlock}
    (texts : ∀ block, (change block).asText = none ↔ block.asText = none)
    (others : ∀ block, block.asText = none → bare (change block) = bare block)
    (content : List MessageContentBlock) :
    bareBlocks (content.map change) = bareBlocks content := by
  induction content with
  | nil => rfl
  | cons block rest ih =>
    simp only [bareBlocks] at ih
    by_cases isText : block.asText = none
    · simp [bareBlocks, texts, isText, others block isText, ih]
    · simp [bareBlocks, texts, isText, ih]

theorem bareBlocks_prepare (message : Message) :
    bareBlocks (prepare host message).content = bareBlocks message.content := by
  have fixed : ∀ content : List MessageContentBlock,
      bareBlocks (content.map (fixEmptyToolResult host)) = bareBlocks content :=
    bareBlocks_map (fun block => by rw [fixEmptyToolResult_asText])
      fun block _ => bare_fixEmptyToolResult host block
  have trimmed : ∀ content : List MessageContentBlock,
      bareBlocks (content.map trimText) = bareBlocks content :=
    bareBlocks_map trimText_asText_none_iff fun block isText => by
      cases block <;> simp_all [trimText, asText]
  have merged : ∀ content : List MessageContentBlock,
      bareBlocks (content.foldl pushMergingText []) = bareBlocks content :=
    fun content => by simpa [bareBlocks] using bareBlocks_merged content []
  cases role : message.role with
  | user => rw [prepare_of_user host role, fixed]
  | assistant => rw [prepare_of_assistant host role, fixed, trimmed, merged]

/-- A text of the prepared message is more than empty exactly when some text of
the message is not blank. -/
theorem hasText_prepare (message : Message) :
    (∃ text, .text text ∈ (prepare host message).content ∧ text.text ≠ "") ↔
      HasText message.role message.content := by
  have fixed : ∀ (text : TextContent) (content : List MessageContentBlock),
      .text text ∈ content.map (fixEmptyToolResult host) ↔ .text text ∈ content := by
    intro text content
    rw [mem_map]
    constructor
    · rintro ⟨block, member, equal⟩
      unfold fixEmptyToolResult at equal
      split at equal
      · cases equal
      · rwa [← equal]
    · exact fun member => ⟨.text text, member, rfl⟩
  cases role : message.role with
  | user =>
    rw [prepare_of_user host role]
    simp only [fixed]
    simp [HasText, isBlankText]
  | assistant =>
    have merged := hasText_merged message.content []
    rw [or_iff_right (by simp [HasText])] at merged
    rw [prepare_of_assistant host role, ← merged]
    simp only [fixed]
    constructor
    · rintro ⟨text, member, nonempty⟩
      obtain ⟨block, inMerged, equal⟩ := mem_map.mp member
      cases block with
      | text original =>
        refine ⟨original, inMerged, ?_⟩
        simp only [trimText, MessageContentBlock.text.injEq] at equal
        subst equal
        simpa [isBlankText] using nonempty
      | _ => cases equal
    · rintro ⟨original, inMerged, nonblank⟩
      refine ⟨_, mem_map.mpr ⟨_, inMerged, rfl⟩, ?_⟩
      simpa [isBlankText] using nonblank

theorem exists_bareBlocks_iff {property : MessageContentBlock → Prop}
    (bares : ∀ block, property (bare block) ↔ property block) (content : List MessageContentBlock) :
    (∃ block ∈ bareBlocks content, property block) ↔
      ∃ block ∈ content, block.asText = none ∧ property block := by
  simp [bareBlocks, bares, and_assoc]

/-- A property of texts and of blocks whatever the results of tools are holds of
some block of the prepared message when it holds of some block of the message. -/
theorem exists_prepare_iff (message : Message) (property : MessageContentBlock → Prop)
    (bares : ∀ block, property (bare block) ↔ property block)
    (texts : ∀ text, property (.text text)) :
    (∃ block ∈ (prepare host message).content, block.asText ≠ some "" ∧ property block) ↔
      ∃ block ∈ message.content, isBlankText message.role block = false ∧ property block := by
  have split : ∀ (content : List MessageContentBlock) (nonblank : MessageContentBlock → Prop),
      (∀ block, block.asText = none → nonblank block) →
      ((∃ block ∈ content, nonblank block ∧ property block) ↔
        (∃ text, .text text ∈ content ∧ nonblank (.text text)) ∨
          ∃ block ∈ bareBlocks content, property block) := by
    intro content nonblank others
    rw [exists_bareBlocks_iff bares]
    constructor
    · rintro ⟨block, member, isNonblank, holds⟩
      cases block with
      | text text => exact Or.inl ⟨text, member, isNonblank⟩
      | _ => exact Or.inr ⟨_, member, rfl, holds⟩
    · rintro (⟨text, member, isNonblank⟩ | ⟨block, member, isText, holds⟩)
      · exact ⟨_, member, isNonblank, texts text⟩
      · exact ⟨block, member, others block isText, holds⟩
  have left := split (prepare host message).content (fun block => block.asText ≠ some "")
    (fun block isText => by simp [isText])
  have right := split message.content (fun block => isBlankText message.role block = false)
    (fun block isText => by
      cases block <;> cases message.role <;> simp_all [isBlankText, asText])
  rw [left, right, bareBlocks_prepare]
  apply or_congr_left
  simpa [asText, HasText] using hasText_prepare host message

theorem contentEvents_bareBlocks (role : Role) (content : List MessageContentBlock) :
    contentEvents role (bareBlocks content) = contentEvents role content := by
  induction content with
  | nil => rfl
  | cons block rest ih =>
    have one : contentEvents role (bareBlocks [block]) = contentEvents role [block] := by
      cases block <;> cases role <;> rfl
    rw [← singleton_append, bareBlocks_append]
    simp only [contentEvents, filterMap_append] at one ih ⊢
    rw [one, ih]

theorem prepare_toolEvents (message : Message) :
    (prepare host message).toolEvents = message.toolEvents := by
  rw [Message.toolEvents, Message.toolEvents, prepare_role, ← contentEvents_bareBlocks,
    bareBlocks_prepare, contentEvents_bareBlocks]

/-! ## The walk -/

/-- The pending requests are the awaited ids. -/
def Tracks (pending : List String) (events : List ToolEvent) : Prop :=
  ∀ id, id ∈ pending ↔ awaited id events = true

theorem tracks_pendingAfter (tracks : Tracks pending before) (role : Role)
    (block : MessageContentBlock) :
    Tracks (pendingAfter pending role block) (before ++ contentEvents role [block]) := by
  have others : toolEvent role block = none → pendingAfter pending role block = pending := by
    cases role <;> cases block <;> simp [toolEvent, pendingAfter]
  intro id
  cases event : toolEvent role block with
  | none =>
    rw [others event]
    simpa [contentEvents, event] using tracks id
  | some toolEvent =>
    cases role <;> cases block <;> cases event
    · rename_i response
      rw [show contentEvents .user [.toolResponse response] = [.answered response.id] from rfl,
        awaited_append_answered]
      by_cases same : response.id = id
      · simp [pendingAfter, same]
      · simp [pendingAfter, tracks id, same, Ne.symm same]
    · rename_i other
      rw [show contentEvents .assistant [.toolRequest other] = [.requested other] from rfl,
        awaited_append_requested]
      by_cases same : other = id
      · simp [pendingAfter, same]
      · simp [pendingAfter, tracks id, same, Ne.symm same]

theorem contentEvents_cons (role : Role) (block : MessageContentBlock)
    (rest : List MessageContentBlock) :
    contentEvents role (block :: rest) = contentEvents role [block] ++ contentEvents role rest :=
  filterMap_append (l := [block])

theorem tracks_walkContent (tracks : Tracks pending before) (role : Role)
    (content : List MessageContentBlock) :
    Tracks (walkContent role pending content).pendingToolRequests
      (before ++ contentEvents role content) := by
  induction content generalizing pending before with
  | nil => simpa [walkContent, contentEvents] using tracks
  | cons block rest ih =>
    rw [contentEvents_cons, ← append_assoc]
    have next := ih (tracks_pendingAfter tracks role block)
    rw [walkContent]
    split <;> exact next

theorem dropUnawaited_append (before front back : List ToolEvent) :
    dropUnawaited before (front ++ back) =
      dropUnawaited before front ++ dropUnawaited (before ++ front) back := by
  induction front generalizing before with
  | nil => simp [dropUnawaited]
  | cons event rest ih =>
    have next := ih (before ++ [event])
    rw [append_assoc, singleton_append] at next
    cases event with
    | requested id => rw [cons_append, dropUnawaited, dropUnawaited, next, cons_append]
    | answered id =>
      rw [cons_append, dropUnawaited, dropUnawaited, next]
      split <;> rfl

/-- The first walk leaves the requests and the awaited answers. -/
theorem contentEvents_walkContent (tracks : Tracks pending before) (role : Role)
    (content : List MessageContentBlock) :
    contentEvents role (walkContent role pending content).left =
      dropUnawaited before (contentEvents role content) := by
  induction content generalizing pending before with
  | nil => rfl
  | cons block rest ih =>
    have next := ih (tracks_pendingAfter tracks role block)
    have one : contentEvents role
        (if (removalIssue pending role block).isSome then [] else [block]) =
          dropUnawaited before (contentEvents role [block]) := by
      cases role <;> cases block <;> try rfl
      rename_i response
      by_cases awaits : response.id ∈ pending
      · simp [removalIssue, awaits, contentEvents, toolEvent, dropUnawaited,
          (tracks response.id).mp awaits]
      · have unawaited : awaited response.id before = false := by
          rw [← Bool.not_eq_true, ← tracks response.id]
          exact awaits
        simp [removalIssue, awaits, contentEvents, toolEvent, dropUnawaited, unawaited]
    rw [contentEvents_cons, dropUnawaited_append, ← one, ← next, walkContent]
    cases removalIssue pending role block with
    | some issue => simp [contentEvents]
    | none => exact contentEvents_cons role block _

/-- A block that is no response of the user is left by the first walk when its
kind may stand in the message. -/
theorem mem_walkContent_iff (kind : ∀ id, toolEvent role block ≠ some (.answered id)) :
    block ∈ (walkContent role pending content).left ↔
      block ∈ content ∧ removalIssue [] role block = none := by
  have issue : ∀ pending, removalIssue pending role block = removalIssue [] role block := by
    cases role <;> cases block <;> simp_all [removalIssue, toolEvent]
  induction content generalizing pending with
  | nil => simp [walkContent]
  | cons head rest ih =>
    rw [walkContent]
    by_cases same : block = head
    · subst same
      rw [issue pending]
      cases removal : removalIssue [] role block with
      | some text => simp [ih, removal]
      | none => simp
    · split <;> simp [ih, same]

/-- What the pass for tool calls leaves of a message. -/
def settleMessage (pending final : List String) (message : Message) : Message :=
  removeOrphanedRequests final { message with
    content := (walkContent message.role pending message.content).left }

theorem contentEvents_settleMessage (tracks : Tracks pending before) (ends : Tracks final all)
    (message : Message) : (settleMessage pending final message).toolEvents =
      (dropUnawaited before message.toolEvents).filter fun event => !orphaned all event := by
  rw [Message.toolEvents, Message.toolEvents, ← contentEvents_walkContent tracks]
  simp only [settleMessage, removeOrphanedRequests, contentEvents, filterMap_filter,
    filter_filterMap]
  apply filterMap_congr
  rintro block -
  cases event : toolEvent message.role block with
  | none => simp
  | some toolEvent =>
    cases role : message.role <;> cases block <;> simp_all [Conversation.toolEvent]
    · subst event
      simp [orphanedRequest, orphaned, Option.filter]
    · rename_i id
      subst event
      by_cases awaits : id ∈ final
      · simp [orphanedRequest, orphaned, awaits, (ends id).mp awaits, Option.filter]
      · have unawaited : awaited id all = false := by
          rw [← Bool.not_eq_true, ← ends id]
          exact awaits
        simp [orphanedRequest, orphaned, awaits, unawaited, Option.filter]

theorem mem_settleMessage_iff (before : List ToolEvent) (ends : Tracks final all)
    (kind : ∀ id, toolEvent message.role block ≠ some (.answered id)) :
    block ∈ (settleMessage pending final message).content ↔
      block ∈ message.content ∧ isRemoved before all message.role block = false := by
  simp only [settleMessage, removeOrphanedRequests, mem_filter, mem_walkContent_iff _ kind,
    and_assoc]
  apply and_congr_right
  intro _
  cases role : message.role <;> cases block <;>
    simp_all [removalIssue, orphanedRequest, isRemoved, toolEvent]
  rename_i id member
  rw [ends id, Bool.not_eq_true]

/-- Of answers alone those are left whose id is awaited before them. -/
theorem mem_dropUnawaited_iff {events : List ToolEvent} {id : String}
    (answers : ∀ other, .requested other ∉ events) : .answered id ∈ dropUnawaited before events ↔
      .answered id ∈ events ∧ awaited id before = true := by
  induction events generalizing before with
  | nil => simp [dropUnawaited]
  | cons event rest ih =>
    cases event with
    | requested other => exact absurd (mem_cons_self) (answers other)
    | answered other =>
      have next : _ ↔ _ ∧ awaited id (before ++ [.answered other]) = true :=
        ih fun any member => answers any (mem_cons_of_mem _ member)
      rw [awaited_append_answered] at next
      rw [dropUnawaited]
      by_cases same : other = id
      · subst same
        cases waiting : awaited other before <;> simp [waiting, next]
      · cases waiting : awaited other before <;> simp [same, Ne.symm same, next]

theorem answered_mem_toolEvents_iff {id : String} : .answered id ∈ message.toolEvents ↔
      message.role = .user ∧ ∃ response, .toolResponse response ∈ message.content ∧
        response.id = id := by
  simp only [Message.toolEvents, contentEvents, mem_filterMap]
  constructor
  · rintro ⟨block, member, event⟩
    cases role : message.role <;> cases block <;> simp_all [toolEvent]
    exact ⟨_, member, event⟩
  · rintro ⟨role, response, member, rfl⟩
    exact ⟨_, member, by rw [role]; rfl⟩

theorem requested_mem_toolEvents_iff {id : String} : .requested id ∈ message.toolEvents ↔
      message.role = .assistant ∧ .toolRequest id ∈ message.content := by
  simp only [Message.toolEvents, contentEvents, mem_filterMap]
  constructor
  · rintro ⟨block, member, event⟩
    cases role : message.role <;> cases block <;> simp_all [toolEvent]
  · rintro ⟨role, member⟩
    exact ⟨_, member, by rw [role]; rfl⟩

/-- Something other than an empty text is left of a message when one of its
blocks is not removed. -/
theorem exists_settleMessage_iff (tracks : Tracks pending before) (ends : Tracks final all)
    (message : Message) :
    (∃ block ∈ (settleMessage pending final message).content, block.asText ≠ some "") ↔
      ∃ block ∈ message.content, block.asText ≠ some "" ∧
        isRemoved before all message.role block = false := by
  have others : ∀ block, (∀ id, toolEvent message.role block ≠ some (.answered id)) →
      (block ∈ (settleMessage pending final message).content ↔
        block ∈ message.content ∧ isRemoved before all message.role block = false) :=
    fun block kind => mem_settleMessage_iff before ends kind
  have responses : ∀ id, (.answered id ∈ (settleMessage pending final message).toolEvents ↔
      .answered id ∈ message.toolEvents ∧ awaited id before = true) := by
    intro id
    rw [contentEvents_settleMessage tracks ends, mem_filter]
    cases role : message.role with
    | user =>
      rw [mem_dropUnawaited_iff fun other member => by
        simp [requested_mem_toolEvents_iff, role] at member]
      simp [orphaned]
    | assistant =>
      have none : .answered id ∉ message.toolEvents := by
        simp [answered_mem_toolEvents_iff, role]
      have noneLeft : .answered id ∉ dropUnawaited before message.toolEvents := by
        have same := contentEvents_walkContent tracks message.role message.content
        rw [← Message.toolEvents] at same
        rw [← same, contentEvents, mem_filterMap]
        rintro ⟨block, -, event⟩
        cases block <;> simp [role, toolEvent] at event
      simp [none, noneLeft]
  constructor
  · rintro ⟨block, member, nonempty⟩
    cases event : toolEvent message.role block with
    | none =>
      have parts := (others block (by simp [event])).mp member
      exact ⟨block, parts.1, nonempty, parts.2⟩
    | some toolEvent =>
      cases toolEvent with
      | requested id =>
        have parts := (others block (by simp [event])).mp member
        exact ⟨block, parts.1, nonempty, parts.2⟩
      | answered id =>
        have left : .answered id ∈ (settleMessage pending final message).toolEvents :=
          mem_filterMap.mpr ⟨block, member, event⟩
        obtain ⟨inMessage, waiting⟩ := (responses id).mp left
        obtain ⟨role, response, inContent, rfl⟩ := answered_mem_toolEvents_iff.mp inMessage
        exact ⟨_, inContent, by simp [asText], by
          simp [role, isRemoved, waiting]⟩
  · rintro ⟨block, member, nonempty, stays⟩
    cases event : toolEvent message.role block with
    | none => exact ⟨block, (others block (by simp [event])).mpr ⟨member, stays⟩, nonempty⟩
    | some toolEvent =>
      cases toolEvent with
      | requested id =>
        exact ⟨block, (others block (by simp [event])).mpr ⟨member, stays⟩, nonempty⟩
      | answered id =>
        have inMessage : .answered id ∈ message.toolEvents :=
          mem_filterMap.mpr ⟨block, member, event⟩
        obtain ⟨role, response, inContent, rfl⟩ := answered_mem_toolEvents_iff.mp inMessage
        have waiting : awaited response.id before = true := by
          cases block <;> simp_all [Conversation.toolEvent, isRemoved]
        have left := (responses response.id).mpr ⟨inMessage, waiting⟩
        obtain ⟨-, other, inSettled, -⟩ := answered_mem_toolEvents_iff.mp left
        exact ⟨_, inSettled, by simp [asText]⟩

/-! ## All messages -/

/-- What the passes before neighbours are merged make of a message that keeps
content. -/
structure RepairedFrom (all : List ToolEvent) (message repaired : Message) : Prop where
  role : repaired.role = message.role
  metadata : repaired.metadata = message.metadata
  filled : repaired.isEmpty = false
  requests : ∀ id, .toolRequest id ∈ repaired.content ↔
    .requested id ∈ message.toolEvents ∧ awaited id all = false
  responses : repaired.role = .assistant → ∀ response, .toolResponse response ∉ repaired.content
  signed : message.role = .assistant → ∀ block, isSignedThinking block = true →
    (block ∈ repaired.content ↔ block ∈ message.content)
  unsigned : message.role = .assistant →
    ((∃ block ∈ repaired.content, block.asText ≠ some "" ∧ isSignedThinking block = false) ↔
      ∃ block ∈ message.content, stays [] all message.role block = true ∧
        isSignedThinking block = false)

theorem isEmpty_eq_false_iff :
    message.isEmpty = false ↔ ∃ block ∈ message.content, block.asText ≠ some "" := by
  simp [Message.isEmpty]

theorem isRemoved_bare (before all : List ToolEvent) (role : Role) (block : MessageContentBlock) :
    isRemoved before all role (bare block) = isRemoved before all role block := by
  cases role <;> cases block <;> rfl

theorem isRemoved_text (before all : List ToolEvent) (role : Role) (text : TextContent) :
    isRemoved before all role (.text text) = false := by
  cases role <;> rfl

theorem isSignedThinking_bare (block : MessageContentBlock) :
    isSignedThinking (bare block) = isSignedThinking block := by
  cases block <;> rfl

theorem stays_iff : stays before all role block = true ↔
      isBlankText role block = false ∧ isRemoved before all role block = false := by
  simp [stays]

theorem filled_iff (tracks : Tracks pending before) (ends : Tracks final all) (host : Host)
    (message : Message) : (settleMessage pending final (prepare host message)).isEmpty = false ↔
      message.content.any (stays before all message.role) = true := by
  rw [isEmpty_eq_false_iff, exists_settleMessage_iff tracks ends, prepare_role,
    exists_prepare_iff host message
      (fun block => isRemoved before all message.role block = false)
      (fun block => by rw [isRemoved_bare]) (isRemoved_text before all message.role),
    any_eq_true]
  simp [stays_iff]

theorem mem_prepare_iff (message : Message) (isText : block.asText = none)
    (isBare : ∀ other, bare other = bare block ↔ other = block) :
    block ∈ (prepare host message).content ↔ block ∈ message.content := by
  have inBare : ∀ content : List MessageContentBlock,
      block ∈ content ↔ bare block ∈ bareBlocks content := by
    intro content
    simp only [bareBlocks, mem_map, mem_filter, decide_eq_true_eq]
    constructor
    · exact fun member => ⟨block, ⟨member, isText⟩, rfl⟩
    · rintro ⟨other, ⟨member, -⟩, equal⟩
      rwa [← (isBare other).mp equal]
  rw [inBare, inBare, bareBlocks_prepare]

theorem repairedFrom (tracks : Tracks pending before) (ends : Tracks final all) (host : Host)
    (keeps : message.content.any (stays before all message.role) = true) :
    RepairedFrom all message (settleMessage pending final (prepare host message)) where
  role := prepare_role host message
  metadata := prepare_metadata host message
  filled := (filled_iff tracks ends host message).mpr keeps
  requests id := by
    rw [mem_settleMessage_iff before ends (by
      cases (prepare host message).role <;> simp [toolEvent]), prepare_role,
      mem_prepare_iff host message rfl (by intro other; cases other <;> simp [bare]),
      requested_mem_toolEvents_iff]
    cases message.role <;> simp [isRemoved]
  responses role response member := by
    have isAssistant : (prepare host message).role = .assistant := role
    rw [mem_settleMessage_iff before ends (by simp [isAssistant, toolEvent]), isAssistant] at member
    simp [isRemoved] at member
  signed role block isSigned := by
    have isAssistant : (prepare host message).role = .assistant :=
      (prepare_role host message).trans role
    rw [mem_settleMessage_iff before ends (by
      cases block <;> simp [isAssistant, toolEvent]), isAssistant]
    have inMessage : block ∈ (prepare host message).content ↔ block ∈ message.content :=
      mem_prepare_iff host message (by cases block <;> simp_all [isSignedThinking,
        asText]) fun other => by
          cases block <;> cases other <;> simp_all [isSignedThinking, bare]
    have stays : isRemoved before all .assistant block = false := by
      cases block <;> simp_all [isSignedThinking, isRemoved]
    rw [inMessage, stays]
    exact and_iff_left rfl
  unsigned role := by
    have isAssistant : (prepare host message).role = .assistant :=
      (prepare_role host message).trans role
    have members : ∀ block, block ∈ (settleMessage pending final (prepare host message)).content ↔
        block ∈ (prepare host message).content ∧ isRemoved [] all .assistant block = false := by
      intro block
      rw [← isAssistant]
      exact mem_settleMessage_iff [] ends (by cases block <;> simp [isAssistant, toolEvent])
    have property := exists_prepare_iff host message
      (fun block => isRemoved [] all .assistant block = false ∧ isSignedThinking block = false)
      (fun block => by rw [isRemoved_bare, isSignedThinking_bare])
      (fun text => ⟨rfl, rfl⟩)
    simp only [members, stays_iff, role, and_assoc] at property ⊢
    rw [← property]
    apply exists_congr
    tauto

theorem toolEvents_of_isEmpty (empty : message.isEmpty = true) : message.toolEvents = [] := by
  apply filterMap_eq_nil_iff.mpr
  intro block member
  have isText := all_eq_true.mp empty block member
  cases block with
  | text text => cases message.role <;> rfl
  | _ => simp [asText] at isText

/-- The messages that the pass for tool calls sees. -/
def prepared (host : Host) (messages : List Message) : List Message :=
  (messages.map (prepare host)).filter fun message => !message.isEmpty

/-- What that pass leaves of messages, with the pending requests before them and
after all messages. -/
def settleMessages (pending final : List String) (messages : List Message) : List Message :=
  ((walkMessages pending messages).left.map (removeOrphanedRequests final)).filter
    fun message => !message.isEmpty

theorem settleMessages_cons (pending final : List String) (message : Message)
    (rest : List Message) : settleMessages pending final (message :: rest) =
      (if (settleMessage pending final message).isEmpty then []
        else [settleMessage pending final message]) ++
        settleMessages (walkContent message.role pending message.content).pendingToolRequests
          final rest := by
  rw [settleMessages, walkMessages, map_cons, filter_cons]
  cases empty : (settleMessage pending final message).isEmpty with
  | true =>
    rw [if_neg (by rw [← settleMessage, empty]; decide)]
    rfl
  | false =>
    rw [if_pos (by rw [← settleMessage, empty]; rfl)]
    rfl

theorem prepared_cons (message : Message) (rest : List Message) :
    prepared host (message :: rest) = if (prepare host message).isEmpty then prepared host rest
      else prepare host message :: prepared host rest := by
  rw [prepared, map_cons, filter_cons]
  cases (prepare host message).isEmpty <;> rfl

theorem tracks_prepare (tracks : Tracks pending before) (host : Host) (message : Message) :
    Tracks (walkContent (prepare host message).role pending
      (prepare host message).content).pendingToolRequests (before ++ message.toolEvents) := by
  rw [← prepare_toolEvents host message]
  exact tracks_walkContent tracks _ _

theorem tracks_walkMessages (tracks : Tracks pending before) (host : Host) (messages : List Message)
    : Tracks (walkMessages pending (prepared host messages)).pendingToolRequests
      (before ++ toolEvents messages) := by
  induction messages generalizing pending before with
  | nil => simpa [prepared, walkMessages, toolEvents] using tracks
  | cons message rest ih =>
    rw [prepared_cons, toolEvents_cons, ← append_assoc]
    split
    · rename_i empty
      rw [← prepare_toolEvents host message, toolEvents_of_isEmpty empty, append_nil]
      exact ih tracks
    · exact ih (tracks_prepare tracks host message)

/-- The messages that keep content and what the passes make of them stand side
by side. -/
theorem forall₂_settled (tracks : Tracks pending before) (ends : Tracks final all) (host : Host)
    (each : ∀ pending before message, Tracks pending before →
      message.content.any (stays before all message.role) = true →
      related message (settleMessage pending final (prepare host message)))
    (messages : List Message) : Forall₂ related (keeping all before messages)
      (settleMessages pending final (prepared host messages)) := by
  induction messages generalizing pending before with
  | nil => exact Forall₂.nil
  | cons message rest ih =>
    have filled := filled_iff tracks ends host message
    rw [keeping, prepared_cons]
    split
    · rename_i keeps
      have settled := filled.mpr keeps
      rw [if_neg, settleMessages_cons, settled]
      · exact Forall₂.cons (each pending before message tracks keeps)
          (ih (tracks_prepare tracks host message))
      · intro empty
        obtain ⟨block, member, nonempty, -⟩ :=
          (exists_settleMessage_iff tracks ends _).mp (isEmpty_eq_false_iff.mp settled)
        exact absurd (isEmpty_eq_false_iff.mpr ⟨block, member, nonempty⟩) (by simp [empty])
    · rename_i nothing
      split
      · rename_i empty
        rw [← prepare_toolEvents host message, toolEvents_of_isEmpty empty, append_nil]
        exact ih tracks
      · rw [settleMessages_cons, if_pos (by
          rw [← Bool.not_eq_false, filled]
          exact nothing)]
        exact ih (tracks_prepare tracks host message)

/-- The tool calls that are left. -/
theorem toolEvents_settleMessages (tracks : Tracks pending before) (ends : Tracks final all)
    (host : Host) (messages : List Message) :
    toolEvents (settleMessages pending final (prepared host messages)) =
      (dropUnawaited before (toolEvents messages)).filter fun event => !orphaned all event := by
  induction messages generalizing pending before with
  | nil => rfl
  | cons message rest ih =>
    have one : toolEvents (if (settleMessage pending final (prepare host message)).isEmpty then []
        else [settleMessage pending final (prepare host message)]) =
          (dropUnawaited before message.toolEvents).filter fun event => !orphaned all event := by
      rw [← prepare_toolEvents host message, ← contentEvents_settleMessage tracks ends]
      split
      · rename_i empty
        rw [toolEvents_of_isEmpty empty]
        rfl
      · simp [toolEvents]
    rw [toolEvents_cons, dropUnawaited_append, filter_append, prepared_cons]
    split
    · rename_i empty
      rw [← prepare_toolEvents host message, toolEvents_of_isEmpty empty, append_nil]
      exact ih tracks
    · rw [settleMessages_cons, toolEvents_append, one]
      exact congrArg _ (ih (tracks_prepare tracks host message))

/-- What the first five passes make of the messages. -/
def repaired (host : Host) (messages : List Message) : List Message :=
  (fixToolCalling (fixEmptyToolResults host (removeEmptyMessages
    (trimAssistantTextWhitespace (mergeTextContentItems messages).1).1).1).1).1

theorem repaired_eq : repaired host messages = settleMessages []
      (walkMessages [] (prepared host messages)).pendingToolRequests (prepared host messages) := by
  have isEmpty : ∀ message, (fixEmptyToolResultsInMessage host message).isEmpty =
      message.isEmpty := by
    simp [Message.isEmpty, fixEmptyToolResultsInMessage, Function.comp_def,
      fixEmptyToolResult_asText]
  have equal : (fixEmptyToolResults host (removeEmptyMessages
      (trimAssistantTextWhitespace (mergeTextContentItems messages).1).1).1).1 =
        prepared host messages := by
    simp only [fixEmptyToolResults, removeEmptyMessages, trimAssistantTextWhitespace,
      mergeTextContentItems, prepared, filter_map, map_map]
    simp only [Function.comp_def, prepare, isEmpty]
    rfl
  rw [repaired, equal]
  rfl

theorem tracks_nil : Tracks [] [] := by
  intro id
  simp [awaited, Calls.awaited, calls]

theorem tracks_prepared :
    Tracks (walkMessages [] (prepared host messages)).pendingToolRequests (toolEvents messages) :=
  tracks_walkMessages tracks_nil host messages

/-- The first five passes leave the messages that keep content. -/
theorem forall₂_repaired (each : ∀ pending final before message, Tracks pending before →
      Tracks final (toolEvents messages) →
      message.content.any (stays before (toolEvents messages) message.role) = true →
      related message (settleMessage pending final (prepare host message))) :
    Forall₂ related (kept messages) (repaired host messages) := by
  rw [repaired_eq]
  have ends := tracks_prepared host messages
  exact forall₂_settled tracks_nil ends host
    (fun pending before message tracks => each pending _ before message tracks ends) messages

theorem toolEvents_repaired :
    toolEvents (repaired host messages) = settled (toolEvents messages) := by
  rw [repaired_eq]
  exact toolEvents_settleMessages tracks_nil (tracks_prepared host messages) host messages

end Obelus.Conversation
