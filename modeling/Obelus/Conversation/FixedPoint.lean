import Obelus.Conversation.Quiet

/-!
# Repaired conversations that are repaired again

Repairing a repaired conversation finds no issue and changes nothing exactly
when the messages the agent sees settle at once: no answer is left without its
request, the ends leave a conversation that begins and ends with the user, and
every run of the assistant keeps something and leaves no texts to be joined.
-/

namespace Obelus.Conversation

open Obelus.Data ToolEvent List

/-- `Conversation::validate`: there is nothing to repair. -/
def validate (host : Host) (conversation : List Message) : Except String (List Message) :=
  let issues := (fixMessages host conversation).2
  if issues ≠ [] then .error ("\n".intercalate issues) else .ok conversation

/-- `Conversation::new`. -/
def new (host : Host) (messages : List Message) : Except String (List Message) :=
  validate host messages

/-- The first answer of the id has no request before it. -/
def AnsweredFirst (id : String) (messages : List Message) : Prop :=
  (calls id (toolEvents messages)).head? = some false

/-- The messages that keep content are a front and a back of one side each, and
between them nothing or messages that begin and end with the user, whose runs of
the assistant each keep something and leave no texts to be joined. -/
structure CleanCut (all : List ToolEvent) (front inner back : List Message) : Prop where
  sides : CutSides front inner back
  fresh : ∀ before run after, inner = before ++ (run ++ after) → IsRun before run after →
    Fresh all (front ++ before) run
  textsApart : ∀ before run after, inner = before ++ (run ++ after) → IsRun before run after →
    ¬TextsMeet all (front ++ before) run
  requests : ∀ id, .requested id ∈ toolEvents front → awaited id all = false →
    ¬AnsweredFirst id inner

/-- One repair settles the messages the agent sees. -/
structure SettlesAtOnce (messages : List Message) : Prop where
  nonempty : messages ≠ []
  awaited : ∀ id, awaited id (toolEvents messages) = true → ¬Answered id (toolEvents messages)
  cut : ∃ front inner back, kept messages = front ++ (inner ++ back) ∧
    CleanCut (toolEvents messages) front inner back

/-- A block that the passes for blocks leave as it is. -/
structure Clean (host : Host) (role : Role) (block : MessageContentBlock) : Prop where
  trimmed : role = .assistant → trimText block = block
  completed : emptyToolResult host block = none
  fits : Fits role block

theorem trimEnd_idem (text : String) : trimEnd (trimEnd text) = trimEnd text := by
  rw [trimEnd, trimEnd, String.toList_ofList, rdropWhile_idempotent]

theorem trimText_idem (block : MessageContentBlock) :
    trimText (trimText block) = trimText block := by
  cases block with
  | text content => simp [trimText, trimEnd_idem]
  | _ => rfl

variable {block : MessageContentBlock} {pending final : List String} {message : Message}
  {all : List ToolEvent} {host : Host}

theorem trimText_fixEmptyToolResult (host : Host) (trimmed : trimText block = block) :
    trimText (fixEmptyToolResult host block) = fixEmptyToolResult host block := by
  unfold fixEmptyToolResult
  split
  · rfl
  · exact trimmed

theorem emptyToolResult_fixEmptyToolResult (host : Host) (block : MessageContentBlock) :
    emptyToolResult host (fixEmptyToolResult host block) = none := by
  unfold fixEmptyToolResult
  split
  · simp [emptyToolResult, hasToolResultContent]
  · assumption

theorem walkContent_sublist (role : Role) (pending : List String)
    (content : List MessageContentBlock) :
    (walkContent role pending content).left.Sublist content := by
  induction content generalizing pending with
  | nil => exact Sublist.refl []
  | cons block rest ih =>
    rw [walkContent]
    split
    · exact (ih _).cons block
    · exact (ih _).cons_cons block

theorem clean_of_mem_settleMessage (host : Host)
    (member : block ∈ (settleMessage pending final (prepare host message)).content) :
    Clean host message.role block := by
  have left : block ∈ (walkContent message.role pending (prepare host message).content).left := by
    rw [← prepare_role host message]
    exact (mem_filter.mp member).1
  have inPrepared := (walkContent_sublist _ _ _).mem left
  refine ⟨fun isAssistant => ?_, ?_, fun kind => ((mem_walkContent_iff _ kind).mp left).2⟩
  · rw [prepare_of_assistant host isAssistant] at inPrepared
    obtain ⟨trimmed, inTrimmed, rfl⟩ := mem_map.mp inPrepared
    obtain ⟨original, -, rfl⟩ := mem_map.mp inTrimmed
    exact trimText_fixEmptyToolResult host (trimText_idem original)
  · have completed : ∃ other, block = fixEmptyToolResult host other := by
      obtain ⟨other, -, isFixed⟩ := mem_map.mp inPrepared
      exact ⟨other, isFixed.symm⟩
    obtain ⟨other, rfl⟩ := completed
    exact emptyToolResult_fixEmptyToolResult host other

/-- What the passes before neighbours are merged leave of a message. -/
structure LeavesBlocks (host : Host) (all : List ToolEvent) (message repaired : Message) :
    Prop where
  role : repaired.role = message.role
  content : message.role = .assistant → repaired.content =
    (prepare host message).content.filter fun block => !isRemoved [] all .assistant block
  events : message.role = .assistant → repaired.toolEvents =
    message.toolEvents.filter fun event => !orphaned all event
  clean : ∀ block ∈ repaired.content, Clean host repaired.role block

theorem content_settleMessage (ends : Tracks final all) (role : message.role = .assistant) :
    (settleMessage pending final message).content =
      message.content.filter fun block => !isRemoved [] all .assistant block := by
  have finalIff : ∀ id, id ∈ final ↔ awaited id all = true := ends
  have left : ∀ (pending : List String) (content : List MessageContentBlock),
      (walkContent .assistant pending content).left =
        content.filter fun block => (removalIssue [] .assistant block).isNone := by
    intro pending content
    induction content generalizing pending with
    | nil => rfl
    | cons block rest ih =>
      have issue : removalIssue pending .assistant block = removalIssue [] .assistant block := by
        cases block <;> rfl
      rw [walkContent, issue]
      cases removal : removalIssue [] .assistant block with
      | some text => simp [removal, ih]
      | none => simp [removal, ih]
  rw [settleMessage, removeOrphanedRequests, role, left, filter_filter]
  apply filter_congr
  intro block _
  cases block with
  | toolRequest id =>
    cases waiting : awaited id all <;>
      simp [orphanedRequest, removalIssue, isRemoved, finalIff, waiting]
  | _ => simp [orphanedRequest, removalIssue, isRemoved]

theorem leavesBlocks {before : List ToolEvent} (tracks : Tracks pending before)
    (ends : Tracks final all) (host : Host) (message : Message) :
    LeavesBlocks host all message (settleMessage pending final (prepare host message)) where
  role := prepare_role host message
  content isAssistant := content_settleMessage ends ((prepare_role host message).trans isAssistant)
  events isAssistant := by
    have noAnswers : ∀ id, .answered id ∉ message.toolEvents := by
      intro id member
      have isUser := (answered_mem_toolEvents_iff.mp member).1
      rw [isAssistant] at isUser
      cases isUser
    have kept : ∀ events : List ToolEvent, (∀ id, .answered id ∉ events) →
        ∀ before, dropUnawaited before events = events := by
      intro events
      induction events with
      | nil => exact fun _ _ => rfl
      | cons event rest ih =>
        intro none before
        rw [dropUnawaited_cons_eq_iff]
        refine ⟨fun id isAnswer => ?_, ih (fun id member => none id (mem_cons_of_mem _ member)) _⟩
        exact absurd (isAnswer ▸ mem_cons_self) (none id)
    rw [contentEvents_settleMessage tracks ends, prepare_toolEvents,
      kept message.toolEvents noAnswers]
  clean block member := by
    have sameRole : (settleMessage pending final (prepare host message)).role = message.role :=
      prepare_role host message
    rw [sameRole]
    exact clean_of_mem_settleMessage host member

/-- What the passes before deduplication leave of a part. -/
structure JoinedFrom (host : Host) (all : List ToolEvent) (part : List Message)
    (merged : Message) : Prop where
  content : merged.role = .assistant → merged.content = joinedContent host all part
  events : merged.role = .assistant → merged.toolEvents =
    (toolEvents part).filter fun event => !orphaned all event
  clean : ∀ block ∈ merged.content, Clean host merged.role block

theorem joinedFrom_of_mergedFrom {part repairedPart : List Message} {merged : Message}
    (sides : Forall₂ (LeavesBlocks host all) part repairedPart)
    (isMerged : MergedFrom repairedPart merged) : JoinedFrom host all part merged where
  content isAssistant := by
    have roles : ∀ message ∈ repairedPart, message.role = .assistant := fun message member =>
      (isMerged.role message member).trans isAssistant
    rw [isMerged.content, joinedContent]
    clear isMerged
    induction sides with
    | nil => rfl
    | cons leaves _ ih =>
      rw [forall_mem_cons] at roles
      rw [flatMap_cons, flatMap_cons, ih roles.2, leaves.content (leaves.role.symm.trans roles.1)]
  events isAssistant := by
    have roles : ∀ message ∈ repairedPart, message.role = .assistant := fun message member =>
      (isMerged.role message member).trans isAssistant
    have whole : merged.toolEvents = toolEvents repairedPart := by
      have single := toolEvents_of_mergedFrom (.cons isMerged .nil)
      simpa [toolEvents] using single
    rw [whole]
    clear isMerged whole
    induction sides with
    | nil => rfl
    | cons leaves _ ih =>
      rw [forall_mem_cons] at roles
      rw [toolEvents_cons, toolEvents_cons, filter_append, ih roles.2,
        leaves.events (leaves.role.symm.trans roles.1)]
  clean block member := by
    rw [isMerged.content] at member
    obtain ⟨repaired, inPart, inContent⟩ := mem_flatMap.mp member
    obtain ⟨message, -, leaves⟩ := exists_left_of_forall₂ sides inPart
    rw [← isMerged.role repaired inPart]
    exact leaves.clean block inContent

theorem exists_parts_joined (host : Host) (messages : List Message) :
    ∃ parts : List (List Message), kept messages = parts.flatten ∧
      Forall₂ (Group (toolEvents messages)) parts (merged host messages) ∧
      Forall₂ (JoinedFrom host (toolEvents messages)) parts (merged host messages) ∧
      (merged host messages).IsChain (fun left right => ¬Joins false left right) ∧
      toolEvents (merged host messages) = settled (toolEvents messages) := by
  obtain ⟨parts, keptEq, sides, chain, calls⟩ := exists_parts_of_kept
    (fun message repaired => RepairedFrom (toolEvents messages) message repaired ∧
      LeavesBlocks host (toolEvents messages) message repaired)
    (fun part merged => Group (toolEvents messages) part merged ∧
      JoinedFrom host (toolEvents messages) part merged) host messages
    (fun _ _ _ message tracks ends keeps =>
      ⟨repairedFrom tracks ends host keeps, leavesBlocks tracks ends host message⟩)
    fun _ _ _ repairs isMerged =>
      ⟨group_of_mergedFrom (repairs.imp fun _ _ here => here.1) isMerged,
        joinedFrom_of_mergedFrom (repairs.imp fun _ _ here => here.2) isMerged⟩
  exact ⟨parts, keptEq, sides.imp fun _ _ here => here.1, sides.imp fun _ _ here => here.2, chain,
    calls⟩

/-- Messages in which the second repair finds nothing, when it finds no place for
a placeholder. -/
structure Steady (messages : List Message) : Prop where
  filled : ∀ message ∈ messages, message.isEmpty = false
  textsApart : ∀ message ∈ messages, message.role = .assistant →
    message.content.IsChain TextsApart
  calls : settled (toolEvents messages) = toolEvents messages
  first : ∀ message ∈ messages.head?, message.role = .user
  last : ∀ message ∈ messages.getLast?, message.role = .user

theorem steady_nil : Steady [] := by
  constructor <;> simp [toolEvents, settled, dropUnawaited]

/-- The messages that one repair leaves. -/
structure RepairedOnce (host : Host) (messages : List Message) : Prop where
  clean : ∀ message ∈ messages, ∀ block ∈ message.content, Clean host message.role block
  chain : messages.IsChain fun left right => ¬Joins false left right
  deduped : (dedupeSignedThinking messages).2 = []

theorem fixMessages_issues_iff {messages : List Message} (once : RepairedOnce host messages) :
    (fixMessages host messages).2 = [] ↔ messages ≠ [] ∧ Steady messages := by
  have passes := (foldl_runProcessor (quiet_processors host) messages []).1
  have trimmed : (trimAssistantTextWhitespace messages).2 = [] :=
    trimAssistantTextWhitespace_issues_iff.mpr fun message member isAssistant block inContent =>
      (once.clean message member block inContent).trimmed isAssistant
  have completed : (fixEmptyToolResults host messages).2 = [] :=
    (fixEmptyToolResults_issues_iff host).mpr fun message member block inContent =>
      (once.clean message member block inContent).completed
  have fits : ∀ message ∈ messages, ∀ block ∈ message.content, Fits message.role block :=
    fun message member block inContent => (once.clean message member block inContent).fits
  have apart : (mergeConsecutiveMessages messages).2 = [] := by
    rw [mergeConsecutive_of_isChain once.chain]
  rw [fixMessages, passes]
  simp only [processors, forall_mem_cons, mergeTextContentItems_issues_iff, trimmed,
    removeEmptyMessages_issues_iff, completed, fixToolCalling_issues_iff, apart, once.deduped,
    fixLeadTrail_issues_iff, populateIfEmpty_issues_iff, true_and]
  constructor
  · rintro ⟨texts, filled, ⟨⟨-, calls⟩, -⟩, ⟨first, last⟩, nonempty, -⟩
    exact ⟨nonempty, filled, texts, calls, first, last⟩
  · rintro ⟨nonempty, steady⟩
    exact ⟨steady.textsApart, steady.filled, ⟨⟨fits, steady.calls⟩, steady.filled⟩,
      ⟨steady.first, steady.last⟩, nonempty, by simp⟩

theorem repairedOnce_hello (host : Host) : RepairedOnce host [Message.userText host "Hello"] where
  clean := by
    simp only [forall_mem_cons, Message.userText]
    refine ⟨⟨⟨by simp, rfl, fun _ => rfl⟩, by simp⟩, by simp⟩
  chain := isChain_singleton _
  deduped := rfl

theorem steady_hello (host : Host) : Steady [Message.userText host "Hello"] := by
  constructor
  · simp [Message.userText, Message.isEmpty, MessageContentBlock.asText]
  · simp [Message.userText]
  · rfl
  · simp [Message.userText]
  · simp [Message.userText]

/-- What is left between the ends was deduplicated after the messages at the
front. -/
theorem exists_inner (messages : List Message) :
    ∃ front inner back, messages = front ++ (inner ++ back) ∧
      (fixLeadTrail (dedupeSignedThinking messages).1).1 =
        (dedupeMessages (front.foldl seenAfter []) inner).1 := by
  obtain ⟨lead, trail, dedupedEq, -, -⟩ := exists_fixLeadTrail (dedupeSignedThinking messages).1
  have sides := forall₂_deduped [] messages
  rw [← dedupeSignedThinking, dedupedEq] at sides
  obtain ⟨front, rest, rfl, frontSides, restSides⟩ := exists_append_of_forall₂ sides
  obtain ⟨inner, back, rfl, innerSides, backSides⟩ := exists_append_of_forall₂ restSides
  refine ⟨front, inner, back, rfl, ?_⟩
  have lengths := forall₂_deduped [] front
  have innerLengths := forall₂_deduped (front.foldl seenAfter []) inner
  have split : (dedupeMessages [] front).1 ++
      ((dedupeMessages (front.foldl seenAfter []) inner).1 ++
        (dedupeMessages (inner.foldl seenAfter (front.foldl seenAfter [])) back).1) =
      lead ++ ((fixLeadTrail (dedupeSignedThinking (front ++ (inner ++ back))).1).1 ++
        trail) := by
    rw [← dedupeMessages_append, ← dedupeMessages_append]
    exact dedupedEq
  have tails := (append_inj split (lengths.length_eq.symm.trans frontSides.length_eq)).2
  exact ((append_inj tails (innerLengths.length_eq.symm.trans innerSides.length_eq)).1).symm

theorem dedupeMessage_content_subset (seen : List MessageContentBlock) (message : Message) :
    ∀ block ∈ (dedupeMessage seen message).content, block ∈ message.content := by
  unfold dedupeMessage
  split
  · exact fun _ member => member
  · exact fun _ member => (dedupeContent_sublist seen message.content).mem member

theorem repairedOnce_fixed (host : Host) (messages : List Message) :
    RepairedOnce host (fixLeadTrail (dedupeSignedThinking (merged host messages)).1).1 := by
  obtain ⟨parts, -, -, joins, chain, -⟩ := exists_parts_joined host messages
  obtain ⟨front, inner, back, mergedEq, fixedEq⟩ := exists_inner (merged host messages)
  rw [fixedEq]
  constructor
  · intro deduped member block inContent
    obtain ⟨before, message, after, innerEq, rfl⟩ := mem_dedupeMessages_iff.mp member
    have inMerged : message ∈ merged host messages := by simp [mergedEq, innerEq]
    obtain ⟨part, -, join⟩ := exists_left_of_forall₂ joins inMerged
    rw [(deduped_dedupeMessage _ message).role]
    exact join.clean block (dedupeMessage_content_subset _ message block inContent)
  · apply isChain_of_deduped (forall₂_deduped _ inner)
    rw [mergedEq] at chain
    exact (isChain_append.mp (isChain_append.mp chain).2.1).1
  · exact dedupeMessages_again (by simp) inner

/-- The second repair finds nothing when what is left between the ends is
steady. -/
theorem fixMessages_again_iff (host : Host) (messages : List Message) :
    (fixMessages host (fixMessages host messages).1).2 = [] ↔
      Steady (fixLeadTrail (dedupeSignedThinking (merged host messages)).1).1 := by
  have once := repairedOnce_fixed host messages
  rw [fixMessages_eq, populateIfEmpty]
  split
  · next isEmpty =>
    rw [isEmpty, fixMessages_issues_iff (repairedOnce_hello host)]
    exact iff_of_true ⟨by simp, steady_hello host⟩ steady_nil
  · next nonempty =>
    rw [fixMessages_issues_iff once]
    exact and_iff_right nonempty

section Cut

variable {host : Host} {all : List ToolEvent} {front inner back : List (List Message)}
  {frontMerged innerMerged backMerged fixed : List Message}

variable {messages merged : List Message} {parts : List (List Message)} {message : Message}

theorem mem_assistantBlocks_iff {block : MessageContentBlock} : block ∈ assistantBlocks messages ↔
      ∃ message ∈ messages, message.role = .assistant ∧ block ∈ message.content := by
  simp [assistantBlocks, and_assoc]

theorem textsApart_dedupeMessage_iff {part : List Message}
    (groups : Forall₂ (Group all) parts merged) (group : Group all part message)
    (join : JoinedFrom host all part message) :
    ((dedupeMessage (merged.foldl seenAfter []) message).role = .assistant →
      (dedupeMessage (merged.foldl seenAfter []) message).content.IsChain TextsApart) ↔
      message.role = .user ∨ ¬TextsMeet all parts.flatten part := by
  rw [(deduped_dedupeMessage _ message).role]
  by_cases isAssistant : message.role = .assistant
  · have content : (dedupeMessage (merged.foldl seenAfter []) message).content =
        (dedupeContent (merged.foldl seenAfter []) (joinedContent host all part)).1 := by
      rw [← join.content isAssistant]
      simp [dedupeMessage, isAssistant]
    have roles : ∀ other ∈ part, other.role = .assistant := fun other member =>
      (group.role other member).trans isAssistant
    have seen : blocksLeft all (merged.foldl seenAfter []) (blocksOf part) =
        blocksLeft all (assistantBlocks parts.flatten) (blocksOf part) := by
      apply blocksLeft_congr
      intro block isSigned
      rw [mem_seen_iff groups isSigned, mem_assistantBlocks_iff]
    rw [content, isChain_dedupeContent_iff host all _ roles, seen, TextsMeet]
    simp [isAssistant]
  · simp [Role.eq_user_of_ne isAssistant]

theorem Arranged.textsApart_iff
    (arranged : Arranged all front inner back frontMerged innerMerged backMerged fixed)
    (joins : Forall₂ (JoinedFrom host all) inner innerMerged) :
    (∀ message ∈ fixed, message.role = .assistant → message.content.IsChain TextsApart) ↔
      ∀ before run after, inner.flatten = before ++ (run ++ after) → IsRun before run after →
        ¬TextsMeet all (front.flatten ++ before) run :=
  arranged.forall_iff (fun earlier run => ¬TextsMeet all earlier run) joins
    textsApart_dedupeMessage_iff

/-- A message that keeps nothing has no call about an id that is not awaited at
the end. -/
theorem calls_eq_nil_of_none_stays {all before : List ToolEvent} {id : String}
    (isSettled : awaited id all = false)
    (nothing : message.content.any (stays before all message.role) = false) :
    calls id (dropUnawaited before message.toolEvents) = [] := by
  rw [any_eq_false] at nothing
  rw [calls, filterMap_eq_nil_iff]
  intro event member
  have inMessage := (dropUnawaited_sublist before message.toolEvents).mem member
  by_contra isCall
  cases event with
  | requested other =>
    obtain rfl : other = id := by simpa [call] using isCall
    obtain ⟨role, request⟩ := requested_mem_toolEvents_iff.mp inMessage
    exact nothing _ request (by simp [stays, isBlankText, isRemoved, role, isSettled])
  | answered other =>
    obtain ⟨role, response, isResponse, rfl⟩ := answered_mem_toolEvents_iff.mp inMessage
    have answers : ∀ any, .requested any ∉ message.toolEvents := by
      intro any request
      rw [requested_mem_toolEvents_iff, role] at request
      cases request.1
    have waiting := ((mem_dropUnawaited_iff answers).mp member).2
    exact nothing _ isResponse (by simp [stays, isBlankText, isRemoved, role, waiting])

theorem awaited_append (id : String) (before events : List ToolEvent) :
    awaited id (before ++ events) = (calls id events).getLastD (awaited id before) := by
  rw [awaited, awaited, calls_append, Calls.awaited_eq_getLastD, Calls.awaited_eq_getLastD]
  cases (calls id events) using reverseRecOn <;> simp

/-- The messages that keep nothing have no call about the id but answers that
nothing awaits. -/
theorem dropUnawaited_calls_keeping {all : List ToolEvent} {id : String}
    (isSettled : awaited id all = false) (before : List ToolEvent) (messages : List Message) :
    Calls.dropUnawaited (awaited id before) (calls id (toolEvents (keeping all before messages))) =
      Calls.dropUnawaited (awaited id before) (calls id (toolEvents messages)) := by
  induction messages generalizing before with
  | nil => rfl
  | cons message rest ih =>
    have tail := ih (before ++ message.toolEvents)
    rw [awaited_append] at tail
    rw [keeping, toolEvents_cons, calls_append, Calls.dropUnawaited_append]
    split
    · rw [toolEvents_cons, calls_append, Calls.dropUnawaited_append, tail]
    · next nothing =>
      have none := calls_eq_nil_of_none_stays isSettled (Bool.eq_false_of_not_eq_true nothing)
      rw [calls_dropUnawaited] at none
      have waiting := Calls.getLastD_dropUnawaited (awaited id before) (calls id message.toolEvents)
      rw [none, getLastD_nil] at waiting
      rw [← waiting] at tail ⊢
      rw [none, nil_append, tail]

theorem toolEvents_of_joins (joins : Forall₂ (JoinedFrom host all) parts merged)
    (roles : ∀ message ∈ merged, message.role = .assistant) :
    toolEvents merged = (toolEvents parts.flatten).filter fun event => !orphaned all event := by
  induction joins with
  | nil => rfl
  | cons join _ ih =>
    rw [forall_mem_cons] at roles
    rw [toolEvents_cons, flatten_cons, toolEvents_append, filter_append, ih roles.2,
      join.events roles.1]

theorem calls_filter_orphaned {all : List ToolEvent} {id : String}
    (isSettled : awaited id all = false) (events : List ToolEvent) :
    calls id (events.filter fun event => !orphaned all event) = calls id events := by
  rw [calls, filterMap_filter]
  apply filterMap_congr
  intro event _
  cases event with
  | requested other =>
    by_cases same : other = id
    · simp [orphaned, same, isSettled]
    · simp [call, same]
  | answered other => simp [orphaned]

theorem calls_eq_replicate_of_role (roles : ∀ message ∈ messages, message.role = .assistant)
    (id : String) : ∃ count, calls id (toolEvents messages) = replicate count true :=
  ⟨_, calls_eq_replicate_of_not_answered (answered_not_mem_of_role roles id)⟩

theorem head_append_replicate_true_iff (calls : List Bool) (count : Nat) :
    (calls ++ replicate count true).head? = some false ↔ calls.head? = some false := by
  cases calls with
  | nil => cases count <;> simp [replicate_succ]
  | cons call rest => simp

/-- When the front requested the id, the calls between the ends begin with an
answer exactly when those of the kept messages do. -/
theorem head_calls_iff
    (arranged : Arranged (toolEvents messages) front inner back frontMerged innerMerged backMerged
      fixed) (joins : Forall₂ (JoinedFrom host (toolEvents messages)) front frontMerged)
    (keptEq : kept messages = (front ++ (inner ++ back)).flatten)
    (frontSide : OneSide front.flatten) (backSide : OneSide back.flatten) {id : String}
    (requested : .requested id ∈ toolEvents front.flatten)
    (isSettled : awaited id (toolEvents messages) = false) :
    (calls id (toolEvents innerMerged)).head? = some false ↔ AnsweredFirst id inner.flatten := by
  obtain ⟨frontCount, frontCalls⟩ := calls_eq_replicate_of_role
    (fun message member => (frontSide message member message member).1) id
  obtain ⟨backCount, backCalls⟩ := calls_eq_replicate_of_role
    (fun message member => (backSide message member message member).1) id
  obtain ⟨mergedCount, mergedCalls⟩ := calls_eq_replicate_of_role arranged.backRole id
  have frontKept : calls id (toolEvents frontMerged) = replicate frontCount true := by
    rw [toolEvents_of_joins joins arranged.frontRole, calls_filter_orphaned isSettled, frontCalls]
  have someRequest : 0 < frontCount := by
    have request := mem_calls_iff.mpr requested
    rw [frontCalls] at request
    exact Nat.pos_of_ne_zero (mem_replicate.mp request).1
  have dropped : calls id (toolEvents (frontMerged ++ (innerMerged ++ backMerged))) =
      Calls.dropUnawaited false (calls id (toolEvents (kept messages))) := by
    have unsettled : Calls.awaited (calls id (toolEvents messages)) = false := isSettled
    rw [arranged.calls, calls_settled, Calls.settled, unsettled]
    have whole := dropUnawaited_calls_keeping isSettled [] messages
    rw [show awaited id [] = false from rfl, ← kept] at whole
    simpa using whole.symm
  rw [keptEq, flatten_append, flatten_append] at dropped
  simp only [toolEvents_append, calls_append, frontKept, frontCalls, backCalls, mergedCalls,
    Calls.dropUnawaited_replicate_true, Bool.false_or, decide_eq_true someRequest] at dropped
  rw [AnsweredFirst,
    ← head_append_replicate_true_iff (calls id (toolEvents innerMerged)) mergedCount,
    ← head_append_replicate_true_iff (calls id (toolEvents inner.flatten)) backCount,
    append_cancel_left dropped, Calls.head_dropUnawaited_true]

theorem Arranged.settled_iff
    (arranged : Arranged (toolEvents messages) front inner back frontMerged innerMerged backMerged
      fixed) (joins : Forall₂ (JoinedFrom host (toolEvents messages)) front frontMerged)
    (keptEq : kept messages = (front ++ (inner ++ back)).flatten)
    (frontSide : OneSide front.flatten) (backSide : OneSide back.flatten) :
    settled (toolEvents fixed) = toolEvents fixed ↔
      (∀ id, awaited id (toolEvents messages) = true → ¬Answered id (toolEvents messages)) ∧
        ∀ id, .requested id ∈ toolEvents front.flatten →
          awaited id (toolEvents messages) = false → ¬AnsweredFirst id inner.flatten := by
  have parts := arranged.calls.symm
  rw [toolEvents_append, toolEvents_append] at parts
  rw [toolEvents_of_deduped arranged.dedupes,
    settled_left_iff parts (answered_not_mem_of_role arranged.frontRole)
      (answered_not_mem_of_role arranged.backRole)]
  refine and_congr_right fun _ => forall_congr' fun id => ?_
  rw [requested_mem_of_groups arranged.frontGroups]
  constructor
  · intro first requested isSettled
    rw [← head_calls_iff arranged joins keptEq frontSide backSide requested isSettled]
    exact first isSettled ⟨requested, isSettled⟩
  · rintro first isSettled ⟨requested, -⟩
    rw [ne_eq, head_calls_iff arranged joins keptEq frontSide backSide requested isSettled]
    exact first requested isSettled

/-- What is left between the ends is steady when the kept messages are cut
cleanly and no id that is awaited at the end was answered before. -/
theorem cutProperty_steady (keptEq : kept messages = parts.flatten) :
    CutProperty (toolEvents messages) parts (JoinedFrom host (toolEvents messages)) Steady
      fun front inner back =>
        (∀ id, awaited id (toolEvents messages) = true → ¬Answered id (toolEvents messages)) ∧
          CleanCut (toolEvents messages) front inner back := by
  intro front inner back frontMerged innerMerged backMerged fixed partsEq frontJoins innerJoins
    arranged frontSide backSide
  subst partsEq
  have first := head_of_sides arranged.innerGroups arranged.dedupes
  have last := last_of_sides arranged.innerGroups arranged.dedupes
  have filled := arranged.filled_iff
  have texts := arranged.textsApart_iff innerJoins
  have calls := arranged.settled_iff frontJoins keptEq frontSide backSide
  constructor
  · intro steady
    obtain ⟨unanswered, requests⟩ := calls.mp steady.calls
    exact ⟨unanswered, ⟨frontSide, backSide, first.mpr steady.first, last.mpr steady.last⟩,
      filled.mp steady.filled, texts.mp steady.textsApart, requests⟩
  · rintro ⟨unanswered, cut⟩
    exact ⟨filled.mpr cut.fresh, texts.mpr cut.textsApart, calls.mpr ⟨unanswered, cut.requests⟩,
      first.mp cut.sides.first, last.mp cut.sides.last⟩

end Cut

/-- The messages are their own repair when their visible ones fill the slots. -/
theorem fillSlots_eq_self {fixed : List Message} {index : Nat} {conversation : List Message}
    (slots : fixed.drop index = agentVisible conversation) :
    (shadowMap index conversation).filterMap (fillSlot fixed) = conversation := by
  induction conversation generalizing index with
  | nil => rfl
  | cons message rest ih =>
    rw [shadowMap]
    cases isVisible : message.metadata.agentVisible with
    | true =>
      have cells : fixed.drop index = message :: agentVisible rest := by
        simpa [agentVisible, isVisible] using slots
      have here : fixed[index]? = some message := by
        rw [← head?_drop, cells]
        rfl
      have next : fixed.drop (index + 1) = agentVisible rest := by
        rw [← tail_drop, cells]
        rfl
      simp [fillSlot, here, ih next]
    | false =>
      have cells : fixed.drop index = agentVisible rest := by
        simpa [agentVisible, isVisible] using slots
      simp [fillSlot, ih cells]

/-- A conversation is repaired without issues exactly when its messages for the
agent are, and then it is unchanged. -/
theorem fixConversation_eq_self_iff (host : Host) (conversation : List Message) :
    fixConversation host conversation = (conversation, []) ↔
      (fixMessages host (agentVisible conversation)).2 = [] := by
  have issues : (fixConversation host conversation).2 =
      (fixMessages host (agentVisible conversation)).2 := by
    unfold fixConversation
    rfl
  constructor
  · intro unchanged
    rw [← issues, unchanged]
  · intro none
    refine Prod.ext ?_ (issues.trans none)
    rw [fixConversation_eq, fixMessages_eq_of_issues host none]
    exact fillSlots_eq_self rfl

theorem validate_eq_ok_iff (host : Host) (messages : List Message) :
    validate host messages = .ok messages ↔ (fixMessages host messages).2 = [] := by
  simp [validate]

theorem repairedOnce_nil (host : Host) : RepairedOnce host [] := by
  constructor <;> simp [dedupeSignedThinking, dedupeMessages]

/-- Repairing the repaired conversation finds nothing and changes nothing, and its
messages for the agent are a valid conversation. -/
structure FixedPoint (host : Host) (conversation : List Message) : Prop where
  again : fixConversation host (fixConversation host conversation).1 =
    ((fixConversation host conversation).1, [])
  accepted : Conversation.new host (agentVisible (fixConversation host conversation).1) =
    .ok (agentVisible (fixConversation host conversation).1)

theorem fixedPoint_iff_issues (host : Host) (conversation : List Message) :
    FixedPoint host conversation ↔
      (fixMessages host (agentVisible (fixConversation host conversation).1)).2 = [] := by
  constructor
  · intro fixed
    exact (fixConversation_eq_self_iff host _).mp fixed.again
  · intro none
    exact ⟨(fixConversation_eq_self_iff host _).mpr none, (validate_eq_ok_iff host _).mpr none⟩

/-- One repair of a conversation is a fixed point exactly when the messages the
agent sees settle at once. -/
theorem fixConversation_fixedPoint_iff (host : Host) (conversation : List Message) :
    FixedPoint host conversation ↔ SettlesAtOnce (agentVisible conversation) := by
  rw [fixedPoint_iff_issues]
  have result := agentVisible_fixConversation host conversation
  by_cases isEmpty : agentVisible conversation = []
  · have nothing : agentVisible (fixConversation host conversation).1 = [] := by
      rw [result, isEmpty]
      rfl
    rw [nothing, isEmpty, fixMessages_issues_iff (repairedOnce_nil host)]
    exact iff_of_false (fun some => some.1 rfl) fun settles => settles.nonempty rfl
  · rw [take_of_length_le (length_fixMessages_le host isEmpty)] at result
    obtain ⟨parts, keptEq, groups, joins, chain, calls⟩ :=
      exists_parts_joined host (agentVisible conversation)
    rw [result, fixMessages_again_iff]
    constructor
    · intro steady
      obtain ⟨front, inner, back, equal, unanswered, cut⟩ :=
        exists_cut groups joins chain calls (cutProperty_steady keptEq) steady
      exact ⟨isEmpty, unanswered, front, inner, back, keptEq.trans equal, cut⟩
    · rintro ⟨-, unanswered, front, inner, back, equal, cut⟩
      exact property_of_cut groups joins chain calls (cutProperty_steady keptEq) steady_nil
        (keptEq.symm.trans equal) cut.sides ⟨unanswered, cut⟩

/-- Two messages of the assistant that are merged after their texts were. -/
def neighbouringTexts : List Message :=
  [textMessage .user true "Hi", textMessage .assistant true "One",
    textMessage .assistant true "Two", textMessage .user true "Go on"]

/-- The second repair merges the texts. -/
theorem not_fixedPoint_neighbouringTexts :
    (fixConversation plainHost (fixConversation plainHost neighbouringTexts).1).2 =
      ["Merged text content"] ∧ ¬FixedPoint plainHost neighbouringTexts := by
  have found : (fixConversation plainHost (fixConversation plainHost neighbouringTexts).1).2 =
      ["Merged text content"] := by decide +kernel
  refine ⟨found, fun fixed => ?_⟩
  rw [fixed.again] at found
  cases found

end Obelus.Conversation
