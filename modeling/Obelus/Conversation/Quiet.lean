import Obelus.Conversation.Repairable
import Obelus.Conversation.TextsLeft

/-!
# Passes without issues

A pass that finds no issue leaves the messages as they are, so all passes find
none exactly when each of them finds none in the messages themselves.
-/

namespace Obelus.Conversation

open ToolEvent List

/-- Without an issue the messages are unchanged. -/
def Quiet (processor : List Message → List Message × List String) : Prop :=
  ∀ messages, (processor messages).2 = [] → (processor messages).1 = messages

theorem foldl_runProcessor {passes : List (List Message → List Message × List String)}
    (quiet : ∀ processor ∈ passes, Quiet processor) (messages : List Message)
    (issues : List String) : ((passes.foldl runProcessor (messages, issues)).2 = [] ↔
        issues = [] ∧ ∀ processor ∈ passes, (processor messages).2 = []) ∧
      ((passes.foldl runProcessor (messages, issues)).2 = [] →
        (passes.foldl runProcessor (messages, issues)).1 = messages) := by
  induction passes generalizing messages issues with
  | nil => simp
  | cons processor passes ih =>
    rw [forall_mem_cons] at quiet
    obtain ⟨issuesIff, unchanged⟩ := ih quiet.2 (processor messages).1
      (issues ++ (processor messages).2)
    rw [foldl_cons]
    have step : runProcessor (messages, issues) processor =
        ((processor messages).1, issues ++ (processor messages).2) := rfl
    rw [step, issuesIff, append_eq_nil_iff, forall_mem_cons]
    constructor
    · constructor
      · rintro ⟨⟨noneBefore, none⟩, others⟩
        rw [quiet.1 messages none] at others
        exact ⟨noneBefore, none, others⟩
      · rintro ⟨noneBefore, none, others⟩
        rw [quiet.1 messages none]
        exact ⟨⟨noneBefore, none⟩, others⟩
    · rintro ⟨⟨noneBefore, none⟩, others⟩
      rw [unchanged (issuesIff.mpr ⟨by simp [noneBefore, none], others⟩)]
      exact quiet.1 messages none

variable {content seen others : List MessageContentBlock} {messages : List Message}
  {pending final : List String} {before events all : List ToolEvent}

theorem foldl_pushMergingText_of_isChain (front : List MessageContentBlock)
    (apart : (front ++ content).IsChain TextsApart) :
    content.foldl pushMergingText front = front ++ content := by
  induction content generalizing front with
  | nil => simp
  | cons item content ih =>
    have pushed : pushMergingText front item = front ++ [item] := by
      apply pushMergingText_of_apart
      intro last isLast
      exact (isChain_append.mp apart).2.2 last isLast item rfl
    rw [foldl_cons, pushed, ih _ (by simpa using apart)]
    simp

theorem length_mergedText_iff (content : List MessageContentBlock) :
    content.length = (content.foldl pushMergingText []).length ↔ content.IsChain TextsApart := by
  constructor
  · intro sameLength
    have kinds := congrArg length (kinds_mergedText content)
    rw [length_map, ← sameLength, ← length_map (f := kindOf)] at kinds
    have unchanged := ((content.map kindOf).destutter_sublist TextsApart).eq_of_length kinds.symm
    rw [destutter_eq_self_iff, isChain_map] at unchanged
    simp only [TextsApart, textsAlike_kindOf] at unchanged
    exact unchanged
  · intro apart
    rw [foldl_pushMergingText_of_isChain [] apart]
    rfl

theorem mergeTextContentItems_issues_iff : (mergeTextContentItems messages).2 = [] ↔
      ∀ message ∈ messages, message.role = .assistant → message.content.IsChain TextsApart := by
  simp only [mergeTextContentItems, filterMap_eq_nil_iff]
  apply forall₂_congr
  intro message _
  by_cases isAssistant : message.role = .assistant
  · simp [mergeTextContentInMessage, isAssistant, ← length_mergedText_iff]
  · simp [mergeTextContentInMessage, isAssistant]

/-- What changes no message changes no list of messages. -/
theorem map_eq_self {change : Message → Message}
    (same : ∀ message ∈ messages, change message = message) : messages.map change = messages :=
  (map_congr_left same).trans (map_id messages)

theorem quiet_mergeTextContentItems : Quiet mergeTextContentItems := by
  intro messages none
  rw [mergeTextContentItems_issues_iff] at none
  apply map_eq_self
  intro message member
  by_cases isAssistant : message.role = .assistant
  · rw [mergeTextContentInMessage, if_neg (not_not.mpr isAssistant),
      foldl_pushMergingText_of_isChain [] (none message member isAssistant)]
    rfl
  · simp [mergeTextContentInMessage, isAssistant]

theorem trimAssistantTextWhitespace_issues_iff : (trimAssistantTextWhitespace messages).2 = [] ↔
      ∀ message ∈ messages, message.role = .assistant →
        ∀ block ∈ message.content, trimText block = block := by
  simp only [trimAssistantTextWhitespace, flatMap_eq_nil_iff]
  apply forall₂_congr
  intro message _
  by_cases isAssistant : message.role = .assistant
  · simp [isAssistant, filterMap_eq_nil_iff]
  · simp [isAssistant]

theorem quiet_trimAssistantTextWhitespace : Quiet trimAssistantTextWhitespace := by
  intro messages none
  rw [trimAssistantTextWhitespace_issues_iff] at none
  apply map_eq_self
  intro message member
  unfold trimAssistantText
  split
  · next isAssistant =>
    have same := (map_congr_left (none message member isAssistant)).trans (map_id message.content)
    rw [same]
  · rfl

theorem removeEmptyMessages_issues_iff :
    (removeEmptyMessages messages).2 = [] ↔ ∀ message ∈ messages, message.isEmpty = false := by
  simp [removeEmptyMessages, filter_eq_nil_iff]

theorem quiet_removeEmptyMessages : Quiet removeEmptyMessages := by
  intro messages none
  rw [removeEmptyMessages_issues_iff] at none
  rw [removeEmptyMessages, filter_eq_self]
  intro message member
  rw [none message member]
  rfl

variable (host : Host)

theorem fixEmptyToolResults_issues_iff : (fixEmptyToolResults host messages).2 = [] ↔
      ∀ message ∈ messages, ∀ block ∈ message.content, emptyToolResult host block = none := by
  simp [fixEmptyToolResults, flatMap_eq_nil_iff, filterMap_eq_nil_iff]

theorem quiet_fixEmptyToolResults : Quiet (fixEmptyToolResults host) := by
  intro messages none
  rw [fixEmptyToolResults_issues_iff] at none
  apply map_eq_self
  intro message member
  have same : ∀ block ∈ message.content, fixEmptyToolResult host block = block := by
    intro block inContent
    rw [fixEmptyToolResult, none message member block inContent]
  have unchanged := (map_congr_left same).trans (map_id message.content)
  rw [fixEmptyToolResultsInMessage, unchanged]

/-- The block may stand in a message of the role, whatever calls are pending. -/
def Fits (role : Role) (block : MessageContentBlock) : Prop :=
  (∀ id, toolEvent role block ≠ some (.answered id)) → removalIssue [] role block = none

theorem removalIssue_eq_none_iff (tracks : Tracks pending before) (role : Role)
    (block : MessageContentBlock) : removalIssue pending role block = none ↔ Fits role block ∧
      ∀ id, toolEvent role block = some (.answered id) → awaited id before = true := by
  have pendingIff : ∀ id, id ∈ pending ↔ awaited id before = true := tracks
  cases role <;> cases block <;> simp [removalIssue, Fits, toolEvent, ← pendingIff]

theorem dropUnawaited_sublist (before events : List ToolEvent) :
    (dropUnawaited before events).Sublist events := by
  induction events generalizing before with
  | nil => exact Sublist.refl []
  | cons event rest ih =>
    have tail := ih (before ++ [event])
    cases event with
    | requested id => exact tail.cons_cons _
    | answered id =>
      rw [dropUnawaited]
      split
      · exact tail.cons_cons _
      · exact tail.cons _

/-- Nothing is dropped of an event that is awaited and of those after it. -/
theorem dropUnawaited_cons_eq_iff {rest : List ToolEvent} {event : ToolEvent} :
    dropUnawaited before (event :: rest) = event :: rest ↔
      (∀ id, event = .answered id → awaited id before = true) ∧
        dropUnawaited (before ++ [event]) rest = rest := by
  cases event with
  | requested id => simp [dropUnawaited]
  | answered id =>
    rw [dropUnawaited]
    split
    · next isAwaited => simp [isAwaited]
    · next unawaited =>
      constructor
      · intro equal
        have short := (dropUnawaited_sublist (before ++ [.answered id]) rest).length_le
        rw [equal, length_cons] at short
        omega
      · rintro ⟨each, -⟩
        exact absurd (each id rfl) unawaited

theorem walkContent_issues_iff (tracks : Tracks pending before) (role : Role)
    (content : List MessageContentBlock) : (walkContent role pending content).issues = [] ↔
      (∀ block ∈ content, Fits role block) ∧
        dropUnawaited before (contentEvents role content) = contentEvents role content := by
  induction content generalizing pending before with
  | nil => simp [walkContent, contentEvents, dropUnawaited]
  | cons block rest ih =>
    have next := ih (tracks_pendingAfter tracks role block)
    have here := removalIssue_eq_none_iff tracks role block
    rw [walkContent, forall_mem_cons]
    cases issue : removalIssue pending role block with
    | some text =>
      have removed : ¬(Fits role block ∧
          ∀ id, toolEvent role block = some (.answered id) → awaited id before = true) := by
        rw [← here, issue]
        simp
      constructor
      · intro none
        simp at none
      · rintro ⟨⟨fits, -⟩, kept⟩
        apply absurd _ removed
        refine ⟨fits, fun id isAnswer => ?_⟩
        rw [contentEvents, filterMap_cons, isAnswer] at kept
        exact (dropUnawaited_cons_eq_iff.mp kept).1 id rfl
    | none =>
      obtain ⟨fits, answered⟩ := here.mp issue
      rw [next, and_iff_right fits]
      apply and_congr_right
      intro _
      cases event : toolEvent role block with
      | none => simp [contentEvents, event]
      | some event' =>
        have first : contentEvents role (block :: rest) =
            event' :: contentEvents role rest := by
          simp [contentEvents, event]
        have alone : contentEvents role [block] = [event'] := by
          simp [contentEvents, event]
        rw [first, alone, dropUnawaited_cons_eq_iff, and_iff_right]
        rintro id rfl
        exact answered id event

theorem walkContent_left {role : Role} (none : (walkContent role pending content).issues = []) :
    (walkContent role pending content).left = content := by
  induction content generalizing pending with
  | nil => rfl
  | cons block rest ih =>
    rw [walkContent] at none ⊢
    cases issue : removalIssue pending role block with
    | some text => simp [issue] at none
    | none =>
      rw [issue] at none
      exact congrArg (block :: ·) (ih none)

theorem walkMessages_issues_iff (tracks : Tracks pending before) (messages : List Message) :
    (walkMessages pending messages).issues = [] ↔
      (∀ message ∈ messages, ∀ block ∈ message.content, Fits message.role block) ∧
        dropUnawaited before (toolEvents messages) = toolEvents messages := by
  induction messages generalizing pending before with
  | nil => simp [walkMessages, toolEvents, dropUnawaited]
  | cons message rest ih =>
    have here := walkContent_issues_iff tracks message.role message.content
    have next := ih (tracks_walkContent tracks message.role message.content)
    rw [walkMessages, append_eq_nil_iff, here, next, forall_mem_cons, toolEvents_cons,
      dropUnawaited_append]
    have events : contentEvents message.role message.content = message.toolEvents := rfl
    rw [events]
    constructor
    · rintro ⟨⟨fits, kept⟩, others, keptOthers⟩
      exact ⟨⟨fits, others⟩, by rw [kept, keptOthers]⟩
    · rintro ⟨⟨fits, others⟩, kept⟩
      have lengths := congrArg length kept
      rw [length_append, length_append] at lengths
      have short := (dropUnawaited_sublist before message.toolEvents).length_le
      have shortRest :=
        (dropUnawaited_sublist (before ++ message.toolEvents) (toolEvents rest)).length_le
      obtain ⟨first, second⟩ := append_inj kept (by omega)
      exact ⟨⟨fits, first⟩, others, second⟩

theorem walkMessages_left (none : (walkMessages pending messages).issues = []) :
    (walkMessages pending messages).left = messages := by
  induction messages generalizing pending with
  | nil => rfl
  | cons message rest ih =>
    rw [walkMessages, append_eq_nil_iff] at none
    rw [walkMessages, walkContent_left none.1, ih none.2]

/-- Nothing of the calls is dropped. -/
theorem filter_orphaned_eq_self_iff : events.filter (fun event => !orphaned events event) = events ↔
      ∀ id, .requested id ∈ events → awaited id events = false := by
  rw [filter_eq_self]
  constructor
  · intro kept id member
    simpa [orphaned] using kept _ member
  · intro answered event member
    cases event with
    | requested id => simp [orphaned, answered id member]
    | answered id => rfl

theorem orphanedRequest_eq_none_iff (ends : Tracks final all) (role : Role)
    (block : MessageContentBlock) : orphanedRequest final role block = none ↔
      ∀ id, toolEvent role block = some (.requested id) → awaited id all = false := by
  have finalIff : ∀ id, id ∈ final ↔ awaited id all = true := ends
  cases role <;> cases block <;> simp [orphanedRequest, toolEvent, finalIff]

theorem settled_eq_self_iff : settled events = events ↔ dropUnawaited [] events = events ∧
      ∀ id, .requested id ∈ events → awaited id events = false := by
  rw [settled, ← filter_orphaned_eq_self_iff]
  constructor
  · intro kept
    have dropped := dropUnawaited_sublist [] events
    have filtered := (filter_sublist (p := fun event => !orphaned events event)
      (l := dropUnawaited [] events)).length_le
    rw [kept] at filtered
    have same := dropped.eq_of_length_le filtered
    exact ⟨same, by rw [same] at kept; exact kept⟩
  · rintro ⟨same, kept⟩
    rw [same, kept]

theorem tracks_walkMessages_messages (tracks : Tracks pending before) (messages : List Message) :
    Tracks (walkMessages pending messages).pendingToolRequests (before ++ toolEvents messages) := by
  induction messages generalizing pending before with
  | nil => simpa [walkMessages, toolEvents] using tracks
  | cons message rest ih =>
    rw [toolEvents_cons, ← append_assoc]
    exact ih (tracks_walkContent tracks message.role message.content)

theorem orphaned_none_iff (ends : Tracks final all) (messages : List Message) :
    (∀ message ∈ messages, ∀ block ∈ message.content,
      orphanedRequest final message.role block = none) ↔
      ∀ id, .requested id ∈ toolEvents messages → awaited id all = false := by
  simp only [orphanedRequest_eq_none_iff ends, toolEvents, mem_flatMap, Message.toolEvents,
    contentEvents, mem_filterMap]
  constructor
  · rintro each id ⟨message, member, block, inContent, event⟩
    exact each message member block inContent id event
  · intro each message member block inContent id event
    exact each id ⟨message, member, block, inContent, event⟩

theorem removeOrphanedRequests_eq_self {message : Message}
    (none : ∀ block ∈ message.content, orphanedRequest final message.role block = none) :
    removeOrphanedRequests final message = message := by
  have kept : (message.content.filter fun block =>
      (orphanedRequest final message.role block).isNone) = message.content := by
    rw [filter_eq_self]
    intro block member
    rw [none block member]
    rfl
  rw [removeOrphanedRequests, kept]

theorem fixToolCalling_eq (messages : List Message) : fixToolCalling messages =
      ((removeEmptyMessages ((walkMessages [] messages).left.map
        (removeOrphanedRequests (walkMessages [] messages).pendingToolRequests))).1,
      (walkMessages [] messages).issues ++
        ((walkMessages [] messages).left.flatMap fun message =>
          message.content.filterMap fun block =>
            (orphanedRequest (walkMessages [] messages).pendingToolRequests message.role block).map
              fun id => "Removed orphaned tool request '" ++ id ++ "'") ++
        (removeEmptyMessages ((walkMessages [] messages).left.map
          (removeOrphanedRequests (walkMessages [] messages).pendingToolRequests))).2) :=
  rfl

/-- The pass for tool calls finds nothing when each block fits its message, the
calls are settled and no message is empty. -/
theorem fixToolCalling_issues_iff : (fixToolCalling messages).2 = [] ↔
      ((∀ message ∈ messages, ∀ block ∈ message.content, Fits message.role block) ∧
        settled (toolEvents messages) = toolEvents messages) ∧
        ∀ message ∈ messages, message.isEmpty = false := by
  have walk := walkMessages_issues_iff tracks_nil messages
  have ends := tracks_walkMessages_messages tracks_nil messages
  rw [nil_append] at ends
  have orphans : (messages.flatMap fun message => message.content.filterMap fun block =>
      (orphanedRequest (walkMessages [] messages).pendingToolRequests message.role block).map
        fun id => "Removed orphaned tool request '" ++ id ++ "'") = [] ↔
      ∀ id, .requested id ∈ toolEvents messages → awaited id (toolEvents messages) = false := by
    rw [← orphaned_none_iff ends]
    simp [flatMap_eq_nil_iff, filterMap_eq_nil_iff]
  have unchanged : (∀ id, .requested id ∈ toolEvents messages →
      awaited id (toolEvents messages) = false) → messages.map
        (removeOrphanedRequests (walkMessages [] messages).pendingToolRequests) = messages := by
    intro answered
    apply map_eq_self
    intro message member
    exact removeOrphanedRequests_eq_self ((orphaned_none_iff ends messages).mpr answered message
      member)
  rw [fixToolCalling_eq, append_eq_nil_iff, append_eq_nil_iff,
    removeEmptyMessages_issues_iff, settled_eq_self_iff]
  constructor
  · rintro ⟨⟨none, noOrphans⟩, filled⟩
    rw [walkMessages_left none] at noOrphans filled
    have answered := orphans.mp noOrphans
    rw [unchanged answered] at filled
    obtain ⟨fits, dropped⟩ := walk.mp none
    exact ⟨⟨fits, dropped, answered⟩, filled⟩
  · rintro ⟨⟨fits, dropped, answered⟩, filled⟩
    have none := walk.mpr ⟨fits, dropped⟩
    rw [walkMessages_left none, unchanged answered]
    exact ⟨⟨none, orphans.mpr answered⟩, filled⟩

theorem quiet_fixToolCalling : Quiet fixToolCalling := by
  intro messages none
  rw [fixToolCalling_issues_iff, settled_eq_self_iff] at none
  obtain ⟨⟨fits, dropped, answered⟩, filled⟩ := none
  have left := walkMessages_left ((walkMessages_issues_iff tracks_nil messages).mpr ⟨fits, dropped⟩)
  have ends := tracks_walkMessages_messages tracks_nil messages
  have unchanged : messages.map
      (removeOrphanedRequests (walkMessages [] messages).pendingToolRequests) = messages := by
    apply map_eq_self
    intro message member
    exact removeOrphanedRequests_eq_self ((orphaned_none_iff ends messages).mpr answered message
      member)
  rw [fixToolCalling_eq, left, unchanged]
  exact quiet_removeEmptyMessages messages (removeEmptyMessages_issues_iff.mpr filled)

theorem mergeConsecutive_of_isChain
    (apart : messages.IsChain fun left right => ¬Joins false left right) :
    mergeConsecutiveMessages messages = (messages, []) := by
  induction messages using reverseRecOn with
  | nil => rfl
  | append_singleton front message ih =>
    obtain ⟨frontApart, -, cut⟩ := isChain_append.mp apart
    have step : mergeConsecutiveMessages (front ++ [message]) =
        mergeStep false (mergeConsecutiveMessages front) message := by
      simp [mergeConsecutiveMessages, mergeConsecutive]
    rw [step, ih frontApart, mergeStep]
    split
    · next last isLast => rw [if_neg (cut last isLast message rfl)]
    · rfl

theorem quiet_mergeConsecutiveMessages : Quiet mergeConsecutiveMessages := by
  intro messages
  induction messages using reverseRecOn with
  | nil => exact fun _ => rfl
  | append_singleton front message ih =>
    have step : mergeConsecutiveMessages (front ++ [message]) =
        mergeStep false (mergeConsecutiveMessages front) message := by
      simp [mergeConsecutiveMessages, mergeConsecutive]
    rw [step, mergeStep]
    split
    · split
      · intro none
        simp at none
      · intro none
        rw [ih none]
    · intro none
      rw [ih none]

theorem quiet_dedupeMessages (seen : List MessageContentBlock) (messages : List Message)
    (none : (dedupeMessages seen messages).2 = []) :
    (dedupeMessages seen messages).1 = messages := by
  induction messages generalizing seen with
  | nil => rfl
  | cons message rest ih =>
    rw [dedupeMessages] at none ⊢
    split at none
    · next isUser =>
      rw [if_pos isUser]
      exact congrArg (message :: ·) (ih seen none)
    · next isAssistant =>
      rw [if_neg isAssistant]
      by_cases sameLength : (dedupeContent seen message.content).1.length ≠ message.content.length
      · simp [sameLength] at none
      · simp only [if_neg sameLength] at none ⊢
        exact congrArg (message :: ·) (ih _ none)

theorem quiet_dedupeSignedThinking : Quiet dedupeSignedThinking :=
  fun messages none => quiet_dedupeMessages [] messages none

/-- Deduplicated content is left as it is when less was seen. -/
theorem dedupeContent_again (fewer : ∀ block ∈ others, block ∈ seen)
    (content : List MessageContentBlock) :
    (dedupeContent others (dedupeContent seen content).1).1 = (dedupeContent seen content).1 ∧
      ∀ block ∈ (dedupeContent others (dedupeContent seen content).1).2,
        block ∈ (dedupeContent seen content).2 := by
  induction content generalizing seen others with
  | nil => exact ⟨rfl, fewer⟩
  | cons block rest ih =>
    rw [dedupeContent]
    by_cases isSigned : isSignedThinking block = true
    · rw [if_pos isSigned]
      split
      · exact ih fewer
      · next fresh =>
        have notOther : block ∉ others := fun member => fresh (fewer block member)
        have longer : ∀ other ∈ others ++ [block], other ∈ seen ++ [block] := by
          intro other member
          rw [mem_append] at member ⊢
          exact member.imp_left (fewer other)
        obtain ⟨same, seenFewer⟩ := ih longer
        simp only [dedupeContent, if_pos isSigned, if_neg notOther]
        exact ⟨congrArg (block :: ·) same, seenFewer⟩
    · obtain ⟨same, seenFewer⟩ := ih fewer
      simp only [if_neg isSigned, dedupeContent]
      exact ⟨congrArg (block :: ·) same, seenFewer⟩

theorem dedupeMessages_again (fewer : ∀ block ∈ others, block ∈ seen) (messages : List Message) :
    (dedupeMessages others (dedupeMessages seen messages).1).2 = [] := by
  induction messages generalizing seen others with
  | nil => rfl
  | cons message rest ih =>
    rw [dedupeMessages_cons, dedupeMessage, seenAfter, dedupeMessages]
    by_cases isUser : message.role ≠ .assistant
    · rw [if_pos isUser, if_pos isUser, if_pos isUser]
      exact ih fewer
    · obtain ⟨same, seenFewer⟩ := dedupeContent_again fewer message.content
      rw [if_neg isUser, if_neg isUser, if_neg isUser]
      simp only [same, ne_eq]
      exact ih seenFewer

theorem fixLeadTrail_issues_iff :
    (fixLeadTrail messages).2 = [] ↔ (∀ message ∈ messages.head?, message.role = .user) ∧
      ∀ message ∈ messages.getLast?, message.role = .user := by
  have leading : (removeLeading messages).2 = [] ↔
      ∀ message ∈ messages.head?, message.role = .user := by
    cases messages with
    | nil => simp [removeLeading]
    | cons first rest => cases role : first.role <;> simp [removeLeading, role]
  have trailing : ∀ led : List Message, (removeTrailing led).2 = [] ↔
      ∀ message ∈ led.getLast?, message.role = .user := by
    intro led
    unfold removeTrailing
    cases led.getLast? with
    | none => simp
    | some last => cases role : last.role <;> simp [role]
  have parts : (fixLeadTrail messages).2 =
      (removeLeading messages).2 ++ (removeTrailing (removeLeading messages).1).2 := rfl
  rw [parts, append_eq_nil_iff, trailing, leading]
  apply and_congr_right
  intro isUser
  have unchanged : (removeLeading messages).1 = messages := by
    cases messages with
    | nil => rfl
    | cons first rest => simp [removeLeading, isUser first rfl]
  rw [unchanged]

theorem quiet_fixLeadTrail : Quiet fixLeadTrail := by
  intro messages none
  obtain ⟨first, last⟩ := fixLeadTrail_issues_iff.mp none
  have equal := fixLeadTrail_eq (Or.inl rfl) (Or.inl rfl) first last
  simpa using equal

theorem populateIfEmpty_issues_iff : (populateIfEmpty host messages).2 = [] ↔ messages ≠ [] := by
  unfold populateIfEmpty
  split <;> simp_all

theorem quiet_populateIfEmpty : Quiet (populateIfEmpty host) := by
  intro messages none
  rw [populateIfEmpty, if_neg ((populateIfEmpty_issues_iff host).mp none)]

theorem quiet_processors : ∀ processor ∈ processors host, Quiet processor := by
  simp only [processors, forall_mem_cons]
  exact ⟨quiet_mergeTextContentItems, quiet_trimAssistantTextWhitespace, quiet_removeEmptyMessages,
    quiet_fixEmptyToolResults host, quiet_fixToolCalling, quiet_mergeConsecutiveMessages,
    quiet_dedupeSignedThinking, quiet_fixLeadTrail, quiet_populateIfEmpty host, by simp⟩

/-- Messages without issues are not changed. -/
theorem fixMessages_eq_of_issues (none : (fixMessages host messages).2 = []) :
    (fixMessages host messages).1 = messages :=
  (foldl_runProcessor (quiet_processors host) messages []).2 none

end Obelus.Conversation
