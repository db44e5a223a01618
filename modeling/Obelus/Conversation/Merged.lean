import Obelus.Conversation.Kept
import Obelus.Data.Parts

/-!
# Merged and deduplicated messages

Merging cuts the messages into parts of neighbours that belong together and
makes one message of each part.  Deduplication then leaves the roles, the
neighbours and the tool calls of the messages as they are.
-/

namespace Obelus.Conversation

open Obelus.Data ToolEvent List

/-- One message made of a part. -/
structure MergedFrom (part : List Message) (merged : Message) : Prop where
  nonempty : part ≠ []
  role : ∀ message ∈ part, message.role = merged.role
  agentVisible : (∀ message ∈ part, message.metadata.agentVisible = true) →
    merged.metadata.agentVisible = true
  userVisible : ∀ message ∈ part,
    message.metadata.userVisible = merged.metadata.userVisible
  turnContext : ∀ message ∈ part,
    message.metadata.turnContext = merged.metadata.turnContext
  content : merged.content = part.flatMap Message.content

theorem Role.eq_user_of_ne {role : Role} (other : role ≠ .assistant) : role = .user := by
  cases role
  · rfl
  · exact absurd rfl other

variable {message left right last deduped : Message} {part messages : List Message}
  {seen content : List MessageContentBlock} {block : MessageContentBlock}

theorem effectiveRole_of_user (role : message.role = .user) :
    effectiveRole message = if hasToolResponse message then .tool else .user := by
  rw [effectiveRole, role]

theorem effectiveRole_of_assistant (role : message.role = .assistant) :
    effectiveRole message = .assistant := by
  rw [effectiveRole, role]

theorem effectiveRole_eq_assistant_iff :
    effectiveRole message = .assistant ↔ message.role = .assistant := by
  constructor
  · intro effective
    cases role : message.role with
    | assistant => rfl
    | user =>
      rw [effectiveRole_of_user role] at effective
      split at effective <;> cases effective
  · exact effectiveRole_of_assistant

theorem role_eq_of_effectiveRole (same : effectiveRole left = effectiveRole right) :
    left.role = right.role := by
  cases isLeft : left.role with
  | assistant =>
    rw [effectiveRole_eq_assistant_iff.mpr isLeft, eq_comm, effectiveRole_eq_assistant_iff] at same
    rw [same]
  | user =>
    cases isRight : right.role with
    | user => rfl
    | assistant =>
      rw [effectiveRole_eq_assistant_iff.mpr isRight, effectiveRole_eq_assistant_iff, isLeft]
        at same
      cases same

/-- Joining messages of one effective role keeps the effective role. -/
theorem effectiveRole_append (same : effectiveRole last = effectiveRole message) :
    effectiveRole { last with content := last.content ++ message.content } =
      effectiveRole last := by
  have roles := role_eq_of_effectiveRole same
  have responses : hasToolResponse { last with content := last.content ++ message.content } =
      (hasToolResponse last || hasToolResponse message) := by
    simp [hasToolResponse]
  by_cases isAssistant : last.role = .assistant
  · rw [effectiveRole_of_assistant isAssistant]
    exact effectiveRole_of_assistant isAssistant
  · have role := Role.eq_user_of_ne isAssistant
    rw [effectiveRole_of_user role, effectiveRole_of_user (roles.symm.trans role)] at same
    have joined : effectiveRole { last with content := last.content ++ message.content } = _ :=
      effectiveRole_of_user role
    rw [joined, effectiveRole_of_user role, responses]
    cases hasLast : hasToolResponse last with
    | true => rfl
    | false =>
      cases hasMessage : hasToolResponse message with
      | true => simp [hasLast, hasMessage] at same
      | false => rfl

theorem mergedFrom_append (merged : MergedFrom part last) (joins : Joins false last message) :
    MergedFrom (part ++ [message]) { last with content := last.content ++ message.content } := by
  obtain ⟨effective, visibility⟩ := joins
  obtain ⟨userVisible, turnContext⟩ := visibility.resolve_left (by decide)
  have each : ∀ {property : Message → Prop}, (∀ other ∈ part, property other) →
      property message → ∀ other ∈ part ++ [message], property other := by
    intro property inPart here other member
    rcases mem_append.mp member with member | member
    · exact inPart other member
    · rw [mem_singleton.mp member]
      exact here
  constructor
  · simp
  · exact each merged.role (role_eq_of_effectiveRole effective).symm
  · exact fun visible => merged.agentVisible fun other member =>
      visible other (mem_append_left _ member)
  · exact each merged.userVisible userVisible.symm
  · exact each merged.turnContext turnContext.symm
  · simp [merged.content]

theorem mergedFrom_singleton (message : Message) : MergedFrom [message] message := by
  constructor <;> simp

/-- Merging makes one message of each part, and the messages it makes do not
join their neighbours. -/
theorem exists_parts_merged (messages : List Message) :
    ∃ parts : List (List Message), messages = parts.flatten ∧
      Forall₂ MergedFrom parts (mergeConsecutiveMessages messages).1 ∧
      (mergeConsecutiveMessages messages).1.IsChain fun left right => ¬Joins false left right := by
  induction messages using reverseRecOn with
  | nil => exact ⟨[], rfl, Forall₂.nil, isChain_nil⟩
  | append_singleton messages message ih =>
    obtain ⟨parts, partsEq, sides, chain⟩ := ih
    have step : (mergeConsecutiveMessages (messages ++ [message])) =
        mergeStep false (mergeConsecutiveMessages messages) message := by
      simp [mergeConsecutiveMessages, mergeConsecutive]
    rw [step, mergeStep]
    cases lastEq : (mergeConsecutiveMessages messages).1.getLast? with
    | none =>
      rw [getLast?_eq_none_iff] at lastEq
      rw [lastEq] at sides ⊢
      cases sides
      refine ⟨[[message]], by simp [partsEq], ?_, isChain_singleton message⟩
      exact Forall₂.cons (mergedFrom_singleton message) Forall₂.nil
    | some last =>
      obtain ⟨front, frontEq⟩ := getLast?_eq_some_iff.mp lastEq
      rw [frontEq] at sides chain
      obtain ⟨frontParts, lastParts, rfl, frontSides, lastSides⟩ := exists_append_of_forall₂ sides
      cases lastSides with
      | @cons part _ _ _ merged rest =>
      cases rest
      simp only [frontEq, dropLast_concat]
      split
      · rename_i joins
        refine ⟨frontParts ++ [part ++ [message]], by simp [partsEq], ?_, ?_⟩
        · exact rel_append frontSides
            (Forall₂.cons (mergedFrom_append merged joins) Forall₂.nil)
        · rw [isChain_append] at chain ⊢
          refine ⟨chain.1, isChain_singleton _, ?_⟩
          rintro left isLeft right isRight
          cases isRight
          have before := chain.2.2 left isLeft last rfl
          rwa [Joins, effectiveRole_append joins.1]
      · rename_i apart
        refine ⟨(frontParts ++ [part]) ++ [[message]], by simp [partsEq], ?_, ?_⟩
        · exact rel_append (rel_append frontSides
            (Forall₂.cons merged Forall₂.nil))
            (Forall₂.cons (mergedFrom_singleton message) Forall₂.nil)
        · rw [isChain_append]
          refine ⟨chain, isChain_singleton _, ?_⟩
          rintro left isLeft right isRight
          cases isRight
          rw [getLast?_concat] at isLeft
          cases isLeft
          exact apart

theorem toolEvents_of_mergedFrom {parts : List (List Message)} {merged : List Message}
    (sides : Forall₂ MergedFrom parts merged) :
    toolEvents merged = toolEvents parts.flatten := by
  induction sides with
  | nil => rfl
  | @cons part message parts merged isMerged _ ih =>
    have one : message.toolEvents = toolEvents part := by
      rw [Message.toolEvents, isMerged.content, contentEvents, filterMap_flatMap]
      apply flatMap_congr
      intro other member
      rw [Message.toolEvents, isMerged.role other member, contentEvents]
    rw [toolEvents_cons, flatten_cons, toolEvents_append, one, ih]

theorem dedupeContent_filter (seen content : List MessageContentBlock) :
    (dedupeContent seen content).1.filter (fun block => !isSignedThinking block) =
      content.filter fun block => !isSignedThinking block := by
  induction content generalizing seen with
  | nil => rfl
  | cons block rest ih =>
    rw [dedupeContent]
    split
    · rename_i isSigned
      split <;> simp [isSigned, ih]
    · rename_i unsigned
      simp [unsigned, ih]

theorem dedupeContent_sublist (seen content : List MessageContentBlock) :
    (dedupeContent seen content).1.Sublist content := by
  induction content generalizing seen with
  | nil => exact Sublist.refl []
  | cons block rest ih =>
    rw [dedupeContent]
    split
    · split
      · exact (ih seen).cons block
      · exact (ih _).cons_cons block
    · exact (ih seen).cons_cons block

/-- What was seen, and the signed thinking of the content. -/
theorem mem_seen_dedupeContent : block ∈ (dedupeContent seen content).2 ↔
      block ∈ seen ∨ (isSignedThinking block = true ∧ block ∈ content) := by
  induction content generalizing seen with
  | nil => simp [dedupeContent]
  | cons head rest ih =>
    rw [dedupeContent]
    by_cases same : block = head
    · subst same
      cases isSigned : isSignedThinking block with
      | true =>
        by_cases wasSeen : block ∈ seen <;> simp [wasSeen, ih]
      | false => simp [isSigned, ih]
    · split
      · split <;> simp [ih, same]
      · simp [ih, same]

/-- Some signed thinking is left of the content when some of it was not seen. -/
theorem exists_signed_dedupeContent :
    (∃ block ∈ (dedupeContent seen content).1, isSignedThinking block = true) ↔
      ∃ block ∈ content, isSignedThinking block = true ∧ block ∉ seen := by
  induction content generalizing seen with
  | nil => simp [dedupeContent]
  | cons head rest ih =>
    rw [dedupeContent]
    split
    · rename_i isSigned
      split
      · rename_i wasSeen
        rw [ih]
        simp [wasSeen]
      · rename_i fresh
        simp [isSigned, fresh]
    · rename_i unsigned
      simp [unsigned, ih]

/-- The message without its repeated thinking. -/
def dedupeMessage (seen : List MessageContentBlock) (message : Message) : Message :=
  if message.role ≠ .assistant then message
  else { message with content := (dedupeContent seen message.content).1 }

def seenAfter (seen : List MessageContentBlock) (message : Message) : List MessageContentBlock :=
  if message.role ≠ .assistant then seen else (dedupeContent seen message.content).2

theorem dedupeMessages_cons (seen : List MessageContentBlock) (message : Message)
    (rest : List Message) : (dedupeMessages seen (message :: rest)).1 =
      dedupeMessage seen message :: (dedupeMessages (seenAfter seen message) rest).1 := by
  rw [dedupeMessages]
  by_cases isAssistant : message.role = .assistant
  · simp only [isAssistant, ne_eq, not_true_eq_false, if_false, dedupeMessage, seenAfter]
    split
    · rfl
    · rename_i sameLength
      have unchanged := (dedupeContent_sublist seen message.content).eq_of_length
        (not_not.mp sameLength)
      rw [unchanged, ← isAssistant]
  · simp only [isAssistant, ne_eq, not_false_eq_true, if_true, dedupeMessage, seenAfter]

/-- Deduplication changes nothing but signed thinking. -/
structure Deduped (message deduped : Message) : Prop where
  role : deduped.role = message.role
  metadata : deduped.metadata = message.metadata
  unsigned : deduped.content.filter (fun block => !isSignedThinking block) =
    message.content.filter fun block => !isSignedThinking block

theorem deduped_dedupeMessage (seen : List MessageContentBlock) (message : Message) :
    Deduped message (dedupeMessage seen message) := by
  unfold dedupeMessage
  split
  · exact ⟨rfl, rfl, rfl⟩
  · exact ⟨rfl, rfl, dedupeContent_filter seen message.content⟩

theorem forall₂_deduped (seen : List MessageContentBlock) (messages : List Message) :
    Forall₂ Deduped messages (dedupeMessages seen messages).1 := by
  induction messages generalizing seen with
  | nil => exact Forall₂.nil
  | cons message rest ih =>
    rw [dedupeMessages_cons]
    exact Forall₂.cons (deduped_dedupeMessage seen message) (ih _)

theorem Deduped.mem_iff (same : Deduped message deduped) (unsigned : isSignedThinking block = false)
    : block ∈ deduped.content ↔ block ∈ message.content := by
  have lists := congrArg (block ∈ ·) same.unsigned
  simpa [mem_filter, unsigned] using lists

theorem Deduped.effectiveRole (same : Deduped message deduped) :
    effectiveRole deduped = effectiveRole message := by
  have responses : hasToolResponse deduped = hasToolResponse message := by
    rw [Bool.eq_iff_iff, hasToolResponse, hasToolResponse, any_eq_true, any_eq_true]
    apply exists_congr
    intro block
    apply and_congr_left
    intro isResponse
    apply same.mem_iff
    cases block <;> simp_all [isSignedThinking]
  by_cases isAssistant : message.role = .assistant
  · rw [effectiveRole_of_assistant isAssistant,
      effectiveRole_of_assistant (same.role.trans isAssistant)]
  · have isUser := Role.eq_user_of_ne isAssistant
    rw [effectiveRole_of_user isUser, effectiveRole_of_user (same.role.trans isUser), responses]

theorem Deduped.joins_iff (sameLeft : Deduped left message) (sameRight : Deduped right deduped) :
    Joins false message deduped ↔ Joins false left right := by
  rw [Joins, Joins, sameLeft.effectiveRole, sameRight.effectiveRole, sameLeft.metadata,
    sameRight.metadata]

theorem dedupeMessages_append (seen : List MessageContentBlock) (front back : List Message) :
    (dedupeMessages seen (front ++ back)).1 =
      (dedupeMessages seen front).1 ++ (dedupeMessages (front.foldl seenAfter seen) back).1 := by
  induction front generalizing seen with
  | nil => rfl
  | cons message rest ih =>
    rw [cons_append, dedupeMessages_cons, dedupeMessages_cons, ih, cons_append, foldl_cons]

theorem mem_dedupeMessages_iff :
    deduped ∈ (dedupeMessages seen messages).1 ↔ ∃ before message after,
      messages = before ++ message :: after ∧
        deduped = dedupeMessage (before.foldl seenAfter seen) message := by
  constructor
  · induction messages generalizing seen with
    | nil => intro member; cases member
    | cons message rest ih =>
      rw [dedupeMessages_cons, mem_cons]
      rintro (rfl | inRest)
      · exact ⟨[], message, rest, rfl, rfl⟩
      · obtain ⟨before, other, after, rfl, rfl⟩ := ih inRest
        exact ⟨message :: before, other, after, rfl, rfl⟩
  · rintro ⟨before, message, after, rfl, rfl⟩
    rw [dedupeMessages_append, dedupeMessages_cons]
    simp

theorem mem_foldl_seenAfter :
    block ∈ messages.foldl seenAfter seen ↔ block ∈ seen ∨ (isSignedThinking block = true ∧
      ∃ message ∈ messages, message.role = .assistant ∧ block ∈ message.content) := by
  induction messages generalizing seen with
  | nil => simp
  | cons message rest ih =>
    rw [foldl_cons, ih, seenAfter]
    split
    · rename_i isUser
      simp [isUser]
    · rename_i isAssistant
      rw [mem_seen_dedupeContent, or_assoc, ← and_or_left]
      simp [not_not.mp isAssistant]

/-- A message of the assistant keeps content when it holds more than empty texts
and signed thinking that was seen. -/
theorem dedupeMessage_filled_iff (role : message.role = .assistant) :
    (dedupeMessage seen message).isEmpty = false ↔
      (∃ block ∈ message.content, block.asText ≠ some "" ∧ isSignedThinking block = false) ∨
        ∃ block ∈ message.content, isSignedThinking block = true ∧ block ∉ seen := by
  have isText : ∀ block, isSignedThinking block = true → block.asText ≠ some "" := by
    intro block
    cases block <;> simp [isSignedThinking, MessageContentBlock.asText]
  rw [isEmpty_eq_false_iff, ← exists_signed_dedupeContent]
  have content : (dedupeMessage seen message).content = (dedupeContent seen message.content).1 := by
    simp [dedupeMessage, role]
  have unsigned : ∀ block, isSignedThinking block = false →
      (block ∈ (dedupeContent seen message.content).1 ↔ block ∈ message.content) := by
    intro block isUnsigned
    rw [← content]
    exact (deduped_dedupeMessage seen message).mem_iff isUnsigned
  rw [content]
  constructor
  · rintro ⟨block, member, nonempty⟩
    cases isSigned : isSignedThinking block with
    | true => exact Or.inr ⟨block, member, isSigned⟩
    | false => exact Or.inl ⟨block, (unsigned block isSigned).mp member, nonempty, isSigned⟩
  · rintro (⟨block, member, nonempty, isUnsigned⟩ | ⟨block, member, isSigned⟩)
    · exact ⟨block, (unsigned block isUnsigned).mpr member, nonempty⟩
    · exact ⟨block, member, isText block isSigned⟩

/-- One message made of neighbours that keep content, in a conversation with the
tool calls `all`. -/
structure Group (all : List ToolEvent) (part : List Message) (merged : Message) : Prop where
  nonempty : part ≠ []
  role : ∀ message ∈ part, message.role = merged.role
  agentVisible : (∀ message ∈ part, message.metadata.agentVisible = true) →
    merged.metadata.agentVisible = true
  userVisible : ∀ message ∈ part,
    message.metadata.userVisible = merged.metadata.userVisible
  turnContext : ∀ message ∈ part,
    message.metadata.turnContext = merged.metadata.turnContext
  filled : merged.isEmpty = false
  requests : ∀ id, .toolRequest id ∈ merged.content ↔
    .requested id ∈ toolEvents part ∧ awaited id all = false
  responses : merged.role = .assistant → ∀ response, .toolResponse response ∉ merged.content
  signed : merged.role = .assistant → ∀ block, isSignedThinking block = true →
    (block ∈ merged.content ↔ ∃ message ∈ part, block ∈ message.content)
  unsigned : merged.role = .assistant →
    ((∃ block ∈ merged.content, block.asText ≠ some "" ∧ isSignedThinking block = false) ↔
      ∃ message ∈ part, ∃ block ∈ message.content, stays [] all .assistant block = true ∧
        isSignedThinking block = false)

theorem group_of_mergedFrom {all : List ToolEvent} {repairedPart : List Message} {merged : Message}
    (sides : Forall₂ (RepairedFrom all) part repairedPart)
    (isMerged : MergedFrom repairedPart merged) : Group all part merged := by
  have right := fun {message} => exists_right_of_forall₂ sides (x := message)
  have left := fun {message} => exists_left_of_forall₂ sides (y := message)
  have role : ∀ message ∈ part, message.role = merged.role := by
    intro message member
    obtain ⟨repaired, inRepaired, from_⟩ := right member
    rw [← from_.role, isMerged.role repaired inRepaired]
  have mem : ∀ block, block ∈ merged.content ↔ ∃ repaired ∈ repairedPart,
      block ∈ repaired.content := by
    intro block
    rw [isMerged.content, mem_flatMap]
  constructor
  · rintro rfl
    cases sides
    exact isMerged.nonempty rfl
  · exact role
  · intro visible
    apply isMerged.agentVisible
    intro repaired member
    obtain ⟨message, inPart, from_⟩ := left member
    rw [from_.metadata]
    exact visible message inPart
  · intro message member
    obtain ⟨repaired, inRepaired, from_⟩ := right member
    rw [← from_.metadata, isMerged.userVisible repaired inRepaired]
  · intro message member
    obtain ⟨repaired, inRepaired, from_⟩ := right member
    rw [← from_.metadata, isMerged.turnContext repaired inRepaired]
  · obtain ⟨repaired, member⟩ := exists_mem_of_ne_nil _ isMerged.nonempty
    obtain ⟨message, -, from_⟩ := left member
    obtain ⟨block, inContent, nonempty⟩ := isEmpty_eq_false_iff.mp from_.filled
    exact isEmpty_eq_false_iff.mpr ⟨block, (mem block).mpr ⟨repaired, member, inContent⟩, nonempty⟩
  · intro id
    rw [mem, toolEvents, mem_flatMap]
    constructor
    · rintro ⟨repaired, member, inContent⟩
      obtain ⟨message, inPart, from_⟩ := left member
      have requested := (from_.requests id).mp inContent
      exact ⟨⟨message, inPart, requested.1⟩, requested.2⟩
    · rintro ⟨⟨message, inPart, requested⟩, answered⟩
      obtain ⟨repaired, member, from_⟩ := right inPart
      exact ⟨repaired, member, (from_.requests id).mpr ⟨requested, answered⟩⟩
  · intro isAssistant response inContent
    obtain ⟨repaired, member, inRepaired⟩ := (mem _).mp inContent
    obtain ⟨message, -, from_⟩ := left member
    exact from_.responses ((isMerged.role repaired member).trans isAssistant) response inRepaired
  · intro isAssistant block isSigned
    rw [mem]
    constructor
    · rintro ⟨repaired, member, inContent⟩
      obtain ⟨message, inPart, from_⟩ := left member
      exact ⟨message, inPart, (from_.signed ((role message inPart).trans isAssistant) block
        isSigned).mp inContent⟩
    · rintro ⟨message, inPart, inContent⟩
      obtain ⟨repaired, member, from_⟩ := right inPart
      exact ⟨repaired, member, (from_.signed ((role message inPart).trans isAssistant) block
        isSigned).mpr inContent⟩
  · intro isAssistant
    constructor
    · rintro ⟨block, inContent, nonempty, isUnsigned⟩
      obtain ⟨repaired, member, inRepaired⟩ := (mem block).mp inContent
      obtain ⟨message, inPart, from_⟩ := left member
      have isMessage := (role message inPart).trans isAssistant
      have kept := (from_.unsigned isMessage).mp ⟨block, inRepaired, nonempty, isUnsigned⟩
      rw [isMessage] at kept
      exact ⟨message, inPart, kept⟩
    · rintro ⟨message, inPart, kept⟩
      obtain ⟨repaired, member, from_⟩ := right inPart
      have isMessage := (role message inPart).trans isAssistant
      rw [← isMessage] at kept
      obtain ⟨block, inRepaired, rest⟩ := (from_.unsigned isMessage).mpr kept
      exact ⟨block, (mem block).mpr ⟨repaired, member, inRepaired⟩, rest⟩

/-- What the first six passes make of the messages. -/
def merged (host : Host) (messages : List Message) : List Message :=
  (mergeConsecutiveMessages (repaired host messages)).1

/-- The merged messages are made of parts of the messages that keep content. -/
theorem exists_parts_of_kept (related : Message → Message → Prop)
    (joined : List Message → Message → Prop) (host : Host) (messages : List Message)
    (each : ∀ pending final before message, Tracks pending before →
      Tracks final (toolEvents messages) →
      message.content.any (stays before (toolEvents messages) message.role) = true →
      related message (settleMessage pending final (prepare host message)))
    (join : ∀ part repairedPart merged, Forall₂ related part repairedPart →
      MergedFrom repairedPart merged → joined part merged) :
    ∃ parts : List (List Message), kept messages = parts.flatten ∧
      Forall₂ joined parts (merged host messages) ∧
      (merged host messages).IsChain (fun left right => ¬Joins false left right) ∧
      toolEvents (merged host messages) = settled (toolEvents messages) := by
  obtain ⟨repairedParts, partsEq, sides, chain⟩ := exists_parts_merged (repaired host messages)
  have repairs := forall₂_repaired host messages each
  rw [partsEq] at repairs
  obtain ⟨parts, keptEq, partSides⟩ := exists_flatten_of_forall₂ repairs
  refine ⟨parts, keptEq, forall₂_comp join partSides sides, chain, ?_⟩
  rw [← toolEvents_repaired host messages, partsEq]
  exact toolEvents_of_mergedFrom sides

theorem exists_groups (host : Host) (messages : List Message) :
    ∃ parts : List (List Message), kept messages = parts.flatten ∧
      Forall₂ (Group (toolEvents messages)) parts (merged host messages) ∧
      (merged host messages).IsChain (fun left right => ¬Joins false left right) ∧
      toolEvents (merged host messages) = settled (toolEvents messages) :=
  exists_parts_of_kept (RepairedFrom (toolEvents messages)) (Group (toolEvents messages)) host
    messages (fun _ _ _ _ tracks ends keeps => repairedFrom tracks ends host keeps)
    fun _ _ _ => group_of_mergedFrom

end Obelus.Conversation
