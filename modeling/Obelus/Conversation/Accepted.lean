import Obelus.Conversation.Merged

/-!
# What a provider accepts

The conversation that a provider accepts begins and ends with a message of the
user, has no empty message and no two neighbours that should have been merged,
and pairs tool requests with responses.  Between groups of the assistant at the
ends, the groups of kept messages give such a conversation exactly when the kept
messages are cut well.
-/

namespace Obelus.Conversation

open Obelus.Data ToolEvent List

def responseIds (messages : List Message) : List String :=
  messages.flatMap fun message => message.content.filterMap fun block =>
    match block with
    | .toolResponse response => some response.id
    | _ => none

structure Sound (messages : List Message) : Prop where
  first : ∀ message ∈ messages.head?, message.role = .user
  last : ∀ message ∈ messages.getLast?, message.role = .user
  filled : ∀ message ∈ messages, message.isEmpty = false
  apart : messages.IsChain fun left right => ¬Joins false left right
  answers : ∀ before message after, messages = before ++ message :: after →
    ∀ response, .toolResponse response ∈ message.content → message.role = .user ∧
      ∃ earlier ∈ before, earlier.role = .assistant ∧ .toolRequest response.id ∈ earlier.content
  answered : ∀ before message after, messages = before ++ message :: after →
    ∀ id, .toolRequest id ∈ message.content → (responseIds after).count id = 1

/-- What a provider accepts. -/
structure Accepted (messages : List Message) : Prop extends Sound messages where
  nonempty : messages ≠ []

/-- Two messages of the assistant that merging would join. -/
def Together (left right : Message) : Prop :=
  left.role = .assistant ∧ right.role = .assistant ∧
    left.metadata.userVisible = right.metadata.userVisible ∧
      left.metadata.turnContext = right.metadata.turnContext

/-- Messages of the assistant with one visibility and one turn-context flag. -/
def OneSide (messages : List Message) : Prop :=
  ∀ left ∈ messages, ∀ right ∈ messages, Together left right

/-- The run is all of the assistant's messages with one visibility and flag
between the messages before it and after it. -/
structure IsRun (before run after : List Message) : Prop where
  nonempty : run ≠ []
  oneSide : OneSide run
  starts : ∀ message ∈ before.getLast?, ¬OneSide (message :: run)
  ends : ∀ message ∈ after.head?, ¬OneSide (run ++ [message])

/-- The run keeps a block other than signed thinking of the assistant's messages
before it. -/
def Fresh (all : List ToolEvent) (earlier run : List Message) : Prop :=
  ∃ message ∈ run, ∃ block ∈ message.content, stays [] all .assistant block = true ∧
    (isSignedThinking block = true → ∀ other ∈ earlier, other.role = .assistant →
      block ∉ other.content)

/-- The messages that keep content are a front and a back of one side each, and
between them nothing or messages that begin and end with the user. -/
structure Cut (all : List ToolEvent) (front inner back : List Message) : Prop where
  frontSide : OneSide front
  backSide : OneSide back
  first : ∀ message ∈ inner.head?, message.role = .user
  last : ∀ message ∈ inner.getLast?, message.role = .user
  fresh : ∀ before run after, inner = before ++ (run ++ after) → IsRun before run after →
    Fresh all (front ++ before) run
  requests : ∀ id, .requested id ∈ toolEvents front → awaited id all = false →
    .requested id ∈ toolEvents inner

/-- The messages the agent sees can be repaired. -/
structure Repairable (messages : List Message) : Prop where
  nonempty : messages ≠ []
  once : ∀ id, ¬Reused id (toolEvents messages)
  cut : ∃ front inner back, kept messages = front ++ (inner ++ back) ∧
    Cut (toolEvents messages) front inner back

/-- Requests stand in messages of the assistant and responses in messages of the
user. -/
structure Placed (message : Message) : Prop where
  requests : ∀ id, .toolRequest id ∈ message.content → message.role = .assistant
  responses : ∀ response, .toolResponse response ∈ message.content → message.role = .user

variable {messages : List Message}

theorem exists_of_toolEvents_eq {before after : List ToolEvent} {event : ToolEvent}
    (equal : toolEvents messages = before ++ event :: after) :
    ∃ front message back early late, messages = front ++ message :: back ∧
      message.toolEvents = early ++ event :: late ∧ before = toolEvents front ++ early ∧
        after = late ++ toolEvents back := by
  induction messages generalizing before with
  | nil => simp [toolEvents] at equal
  | cons message rest ih =>
    have inRest : ∀ before : List ToolEvent, toolEvents rest = before ++ event :: after →
        ∃ front other back early late, message :: rest = front ++ other :: back ∧
          other.toolEvents = early ++ event :: late ∧
            message.toolEvents ++ before = toolEvents front ++ early ∧
              after = late ++ toolEvents back := by
      intro before restEq
      obtain ⟨front, other, back, early, late, rfl, otherEq, rfl, rfl⟩ := ih restEq
      exact ⟨message :: front, other, back, early, late, rfl, otherEq, by simp, rfl⟩
    rcases append_eq_append_iff.mp equal with ⟨middle, rfl, restEq⟩ | ⟨middle, first, restEq⟩
    · exact inRest middle restEq
    · cases middle with
      | nil =>
        have found := inRest [] restEq.symm
        rwa [append_nil, first, append_nil] at found
      | cons head tail =>
        obtain ⟨rfl, rfl⟩ := cons.inj restEq
        exact ⟨[], message, rest, before, tail, rfl, first, rfl, rfl⟩

theorem count_toolEvents (placed : ∀ message ∈ messages, Placed message) (id : String) :
    (toolEvents messages).count (.answered id) = (responseIds messages).count id := by
  induction messages with
  | nil => rfl
  | cons message rest ih =>
    have one : message.toolEvents.count (.answered id) =
        (message.content.filterMap fun block =>
          match block with
          | .toolResponse response => some response.id
          | _ => none).count id := by
      have user := (placed message mem_cons_self).responses
      rw [Message.toolEvents, contentEvents]
      generalize message.content = content at user
      induction content with
      | nil => rfl
      | cons block tail tailIh =>
        have tailEq := tailIh fun response member => user response (mem_cons_of_mem block member)
        rw [filterMap_cons, filterMap_cons]
        cases block with
        | toolResponse response =>
          have isUser := user response mem_cons_self
          rw [isUser] at tailEq ⊢
          simp only [toolEvent, count_cons, tailEq, beq_iff_eq, answered.injEq]
        | _ =>
          cases role : message.role <;> rw [role] at tailEq <;>
            simpa [toolEvent] using tailEq
    rw [toolEvents_cons, count_append, one, ih fun other member =>
      placed other (mem_cons_of_mem _ member), responseIds, responseIds, flatMap_cons,
      count_append]

/-- Requests and responses in their places are paired as messages exactly when
they are paired as events. -/
theorem paired_toolEvents_iff (placed : ∀ message ∈ messages, Placed message) :
    Paired (toolEvents messages) ↔
      (∀ before message after, messages = before ++ message :: after →
        ∀ response, .toolResponse response ∈ message.content → message.role = .user ∧
          ∃ earlier ∈ before, earlier.role = .assistant ∧
            .toolRequest response.id ∈ earlier.content) ∧
      ∀ before message after, messages = before ++ message :: after →
        ∀ id, .toolRequest id ∈ message.content → (responseIds after).count id = 1 := by
  have oneKind : ∀ message : Message, ∀ {early late : List ToolEvent} {event : ToolEvent},
      message.toolEvents = early ++ event :: late →
        (∀ id, message.role = .user → .requested id ∉ early) ∧
          ∀ id, message.role = .assistant → .answered id ∉ late := by
    intro message early late event equal
    constructor
    · intro id role member
      have inMessage : .requested id ∈ message.toolEvents := by simp [equal, member]
      rw [requested_mem_toolEvents_iff, role] at inMessage
      exact absurd inMessage.1 (by decide)
    · intro id role member
      have inMessage : .answered id ∈ message.toolEvents := by simp [equal, member]
      rw [answered_mem_toolEvents_iff, role] at inMessage
      exact absurd inMessage.1 (by decide)
  constructor
  · intro paired
    constructor
    · rintro before message after rfl response member
      have isUser := (placed message (by simp)).responses response member
      have event : .answered response.id ∈ message.toolEvents :=
        answered_mem_toolEvents_iff.mpr ⟨isUser, response, member, rfl⟩
      obtain ⟨early, late, equal⟩ := append_of_mem event
      have requested := paired.requested (toolEvents before ++ early) response.id
        (late ++ toolEvents after) (by simp [equal])
      rcases mem_append.mp requested with inBefore | inEarly
      · obtain ⟨earlier, inFront, request⟩ := mem_flatMap.mp inBefore
        exact ⟨isUser, earlier, inFront, requested_mem_toolEvents_iff.mp request⟩
      · exact absurd inEarly ((oneKind message equal).1 _ isUser)
    · rintro before message after rfl id member
      have isAssistant := (placed message (by simp)).requests id member
      have event : .requested id ∈ message.toolEvents :=
        requested_mem_toolEvents_iff.mpr ⟨isAssistant, member⟩
      obtain ⟨early, late, equal⟩ := append_of_mem event
      have one := paired.answered (toolEvents before ++ early) id (late ++ toolEvents after)
        (by simp [equal])
      rw [count_append, count_eq_zero.mpr ((oneKind message equal).2 id isAssistant),
        Nat.zero_add, count_toolEvents fun other inAfter => placed other (by simp [inAfter])] at one
      exact one
  · rintro ⟨answers, answered⟩
    constructor
    · intro before id after equal
      obtain ⟨front, message, back, early, late, rfl, messageEq, rfl, rfl⟩ :=
        exists_of_toolEvents_eq equal
      have event : .answered id ∈ message.toolEvents := by simp [messageEq]
      obtain ⟨-, response, member, rfl⟩ := answered_mem_toolEvents_iff.mp event
      obtain ⟨-, earlier, inFront, request⟩ := answers front message back rfl response member
      apply mem_append_left
      exact mem_flatMap.mpr ⟨earlier, inFront, requested_mem_toolEvents_iff.mpr request⟩
    · intro before id after equal
      obtain ⟨front, message, back, early, late, rfl, messageEq, rfl, rfl⟩ :=
        exists_of_toolEvents_eq equal
      have event : .requested id ∈ message.toolEvents := by simp [messageEq]
      obtain ⟨isAssistant, member⟩ := requested_mem_toolEvents_iff.mp event
      have one := answered front message back rfl id member
      rw [count_append, count_eq_zero.mpr ((oneKind message messageEq).2 id isAssistant),
        Nat.zero_add, count_toolEvents fun other inBack => placed other (by simp [inBack])]
      exact one

section Aligned

variable {all : List ToolEvent}

variable {part merged messages deduped : List Message} {parts : List (List Message)}
  {message : Message}

theorem placed_of_group {merged : Message} (group : Group all part merged) : Placed merged := by
  constructor
  · intro id member
    obtain ⟨message, inPart, event⟩ := mem_flatMap.mp ((group.requests id).mp member).1
    rw [← group.role message inPart]
    exact (requested_mem_toolEvents_iff.mp event).1
  · intro response member
    by_contra other
    cases role : merged.role with
    | user => exact other role
    | assistant => exact group.responses role response member

theorem oneSide_of_group {merged : Message} (group : Group all part merged)
    (role : merged.role = .assistant) : OneSide part := by
  intro left isLeft right isRight
  refine ⟨(group.role left isLeft).trans role, (group.role right isRight).trans role, ?_, ?_⟩
  · rw [group.userVisible left isLeft, group.userVisible right isRight]
  · rw [group.turnContext left isLeft, group.turnContext right isRight]

theorem nonempty_of_groups (sides : Forall₂ (Group all) parts merged) : [] ∉ parts := by
  intro member
  obtain ⟨message, -, group⟩ := exists_right_of_forall₂ sides member
  exact group.nonempty rfl

/-- The messages of neighbouring groups would not be joined. -/
theorem cutApart_of_groups (sides : Forall₂ (Group all) parts merged)
    (chain : merged.IsChain fun left right => ¬Joins false left right) :
    CutApart Together parts := by
  induction sides with
  | nil => exact isChain_nil
  | @cons part message parts merged group rest ih =>
    cases rest with
    | nil => exact isChain_singleton part
    | @cons nextPart next parts merged nextGroup rest =>
      obtain ⟨apart, tail⟩ := isChain_cons_cons.mp chain
      refine isChain_cons_cons.mpr ⟨?_, ih tail⟩
      rintro left isLeft right isRight ⟨leftRole, rightRole, userVisible, turnContext⟩
      have inPart := mem_of_getLast? isLeft
      have inNext := mem_of_head? isRight
      apply apart
      refine ⟨?_, Or.inr ⟨?_, ?_⟩⟩
      · rw [effectiveRole_of_assistant ((group.role left inPart).symm.trans leftRole),
          effectiveRole_of_assistant ((nextGroup.role right inNext).symm.trans rightRole)]
      · rw [← group.userVisible left inPart, ← nextGroup.userVisible right inNext, userVisible]
      · rw [← group.turnContext left inPart, ← nextGroup.turnContext right inNext, turnContext]

theorem OneSide.isChain (oneSide : OneSide messages) : messages.IsChain Together :=
  (pairwise_of_forall_mem_list oneSide).isChain

theorem OneSide.sublist {some : List Message} (oneSide : OneSide messages)
    (subset : some ⊆ messages) : OneSide some :=
  fun left isLeft right isRight => oneSide left (subset isLeft) right (subset isRight)

/-- Deduplication brings no messages together that should have been merged. -/
theorem isChain_of_deduped (sides : Forall₂ Deduped messages deduped)
    (chain : messages.IsChain fun left right => ¬Joins false left right) :
    deduped.IsChain fun left right => ¬Joins false left right := by
  induction sides with
  | nil => exact isChain_nil
  | @cons message deduped messages others same rest ih =>
    cases rest with
    | nil => exact isChain_singleton deduped
    | @cons next dedupedNext messages others sameNext rest =>
      obtain ⟨here, tail⟩ := isChain_cons_cons.mp chain
      refine isChain_cons_cons.mpr ⟨?_, ih tail⟩
      rwa [same.joins_iff sameNext]

theorem toolEvents_of_deduped (sides : Forall₂ Deduped messages deduped) :
    toolEvents deduped = toolEvents messages := by
  induction sides with
  | nil => rfl
  | @cons message deduped messages rest same _ ih =>
    have events : ∀ content : List MessageContentBlock, contentEvents message.role content =
        contentEvents message.role (content.filter fun block => !isSignedThinking block) := by
      intro content
      rw [contentEvents, contentEvents, filterMap_filter]
      apply filterMap_congr
      intro block _
      cases role : message.role <;> cases block <;> simp [toolEvent, isSignedThinking]
    rw [toolEvents_cons, toolEvents_cons, ih, Message.toolEvents, Message.toolEvents, same.role,
      events, same.unsigned, ← events]

section

variable (groups : List.Forall₂ (Group all) parts merged)
include groups

theorem head_of_sides (dedupes : Forall₂ Deduped merged deduped) :
    (∀ message ∈ parts.flatten.head?, message.role = .user) ↔
      ∀ message ∈ deduped.head?, message.role = .user := by
  cases groups with
  | nil =>
    cases dedupes
    simp
  | @cons part message parts merged group rest =>
    cases dedupes with
    | cons same others =>
      cases part with
      | nil => exact absurd rfl group.nonempty
      | cons first part =>
        have roles := group.role first mem_cons_self
        simp [same.role, roles]

theorem last_of_sides (dedupes : Forall₂ Deduped merged deduped) :
    (∀ message ∈ parts.flatten.getLast?, message.role = .user) ↔
      ∀ message ∈ deduped.getLast?, message.role = .user := by
  cases parts using reverseRecOn with
  | nil =>
    cases groups
    cases dedupes
    simp
  | append_singleton parts part =>
    obtain ⟨front, back, rfl, -, backGroups⟩ := exists_append_of_forall₂ groups.flip
    obtain ⟨dedupedFront, dedupedBack, rfl, -, backDedupes⟩ := exists_append_of_forall₂ dedupes.flip
    cases backGroups with
    | @cons message _ _ _ group rest =>
      cases rest
      cases backDedupes with
      | @cons deduped _ _ _ same rest =>
        cases rest
        cases part using reverseRecOn with
        | nil => exact absurd rfl group.nonempty
        | append_singleton part last =>
          have roles := group.role last (by simp)
          have sameRole := same.role
          simp [sameRole, roles]

theorem mem_seen_iff {block : MessageContentBlock} (isSigned : isSignedThinking block = true) :
    block ∈ merged.foldl seenAfter [] ↔
      ∃ other ∈ parts.flatten, other.role = .assistant ∧ block ∈ other.content := by
  rw [mem_foldl_seenAfter]
  simp only [not_mem_nil, false_or, isSigned, true_and, mem_flatten]
  constructor
  · rintro ⟨message, member, role, inContent⟩
    obtain ⟨part, inParts, group⟩ := exists_left_of_forall₂ groups member
    obtain ⟨other, inPart, inOther⟩ := (group.signed role block isSigned).mp inContent
    exact ⟨other, ⟨part, inParts, inPart⟩, (group.role other inPart).trans role, inOther⟩
  · rintro ⟨other, ⟨part, inParts, inPart⟩, role, inOther⟩
    obtain ⟨message, member, group⟩ := exists_right_of_forall₂ groups inParts
    have isAssistant := (group.role other inPart).symm.trans role
    exact ⟨message, member, isAssistant,
      (group.signed isAssistant block isSigned).mpr ⟨other, inPart, inOther⟩⟩

/-- A message of the user keeps its content, and a group of the assistant keeps
some when it is fresh. -/
theorem filled_dedupeMessage_iff (group : Group all part message) :
    (dedupeMessage (merged.foldl seenAfter []) message).isEmpty = false ↔
      message.role = .user ∨ Fresh all parts.flatten part := by
  by_cases isAssistant : message.role = .assistant
  · have signedStays : ∀ block, isSignedThinking block = true →
        stays [] all .assistant block = true := by
      intro block isSigned
      cases block <;> simp_all [isSignedThinking, stays, isBlankText, isRemoved]
    rw [dedupeMessage_filled_iff isAssistant, group.unsigned isAssistant]
    constructor
    · rintro (⟨other, inPart, block, member, kept, unsigned⟩ | ⟨block, member, isSigned, unseen⟩)
      · exact Or.inr ⟨other, inPart, block, member, kept, by simp [unsigned]⟩
      · obtain ⟨other, inPart, inOther⟩ := (group.signed isAssistant block isSigned).mp member
        refine Or.inr ⟨other, inPart, block, inOther, signedStays block isSigned, ?_⟩
        intro _ earlier inEarlier role inContent
        exact unseen ((mem_seen_iff groups isSigned).mpr ⟨earlier, inEarlier, role, inContent⟩)
    · rintro (isUser | ⟨other, inPart, block, member, kept, fresh⟩)
      · rw [isAssistant] at isUser
        cases isUser
      · cases isSigned : isSignedThinking block with
        | false => exact Or.inl ⟨other, inPart, block, member, kept, isSigned⟩
        | true =>
          refine Or.inr ⟨block, (group.signed isAssistant block isSigned).mpr
            ⟨other, inPart, member⟩, isSigned, fun seen => ?_⟩
          obtain ⟨earlier, inEarlier, role, inContent⟩ := (mem_seen_iff groups isSigned).mp seen
          exact fresh isSigned earlier inEarlier role inContent
  · have unchanged : dedupeMessage (merged.foldl seenAfter []) message = message := by
      simp [dedupeMessage, isAssistant]
    rw [unchanged, group.filled]
    simp [Role.eq_user_of_ne isAssistant]

end

/-- A group of the assistant between other groups is a run of the messages. -/
theorem isRun_of_group {before after : List (List Message)}
    (groups : Forall₂ (Group all) (before ++ part :: after) merged)
    (apart : CutApart Together (before ++ part :: after)) (group : Group all part message)
    (role : message.role = .assistant) : IsRun before.flatten part after.flatten where
  nonempty := group.nonempty
  oneSide := oneSide_of_group group role
  starts other isLast joined := by
    cases before using reverseRecOn with
    | nil => simp at isLast
    | append_singleton before last =>
      have nonempty : last ≠ [] := by
        rintro rfl
        exact nonempty_of_groups groups (by simp)
      rw [flatten_append, flatten_singleton, getLast?_append,
        getLast?_eq_some_getLast nonempty] at isLast
      obtain ⟨first, isFirst⟩ := Option.isSome_iff_exists.mp (isSome_head?.mpr group.nonempty)
      have cut := (isChain_append.mp apart).2.2 last (by simp) part rfl
      apply cut other _ first isFirst
      · exact joined other mem_cons_self first (mem_cons_of_mem _ (mem_of_head? isFirst))
      · rw [getLast?_eq_some_getLast nonempty]
        exact isLast
  ends other isFirst joined := by
    cases after with
    | nil => simp at isFirst
    | cons next after =>
      have nonempty : next ≠ [] := by
        rintro rfl
        exact nonempty_of_groups groups (by simp)
      have isHead : other ∈ next.head? := by
        cases next with
        | nil => exact absurd rfl nonempty
        | cons head tail => simpa using isFirst
      have isLast := getLast?_eq_some_getLast group.nonempty
      have cut := (isChain_cons_cons.mp (isChain_append.mp apart).2.1).1
      apply cut _ isLast other isHead
      exact joined _ (mem_append_left _ (mem_of_getLast? isLast)) other (by simp)

/-- The groups at the front and at the back are of the assistant, and the messages
between them are deduplicated. -/
structure Arranged (all : List ToolEvent) (front inner back : List (List Message))
    (frontMerged innerMerged backMerged fixed : List Message) : Prop where
  frontGroups : List.Forall₂ (Group all) front frontMerged
  innerGroups : List.Forall₂ (Group all) inner innerMerged
  backGroups : List.Forall₂ (Group all) back backMerged
  chain : (frontMerged ++ (innerMerged ++ backMerged)).IsChain fun left right =>
    ¬Joins false left right
  calls : toolEvents (frontMerged ++ (innerMerged ++ backMerged)) = settled all
  frontRole : ∀ message ∈ frontMerged, message.role = .assistant
  backRole : ∀ message ∈ backMerged, message.role = .assistant
  fixed : fixed = (dedupeMessages (frontMerged.foldl seenAfter []) innerMerged).1

variable {front inner back : List (List Message)}
  {frontMerged innerMerged backMerged fixed : List Message}

section

variable (arranged : Arranged all front inner back frontMerged innerMerged backMerged fixed)
include arranged

theorem Arranged.innerApart : CutApart Together inner := by
  apply cutApart_of_groups arranged.innerGroups
  exact (isChain_append.mp (isChain_append.mp arranged.chain).2.1).1

theorem Arranged.dedupes : Forall₂ Deduped innerMerged fixed := by
  rw [arranged.fixed]
  exact forall₂_deduped _ _

/-- A property of the messages between the ends is a property of the runs of the
assistant between them. -/
theorem Arranged.forall_iff {joined : List Message → Message → Prop} {good : Message → Prop}
    (goodRun : List Message → List Message → Prop) (joins : Forall₂ joined inner innerMerged)
    (each : ∀ {parts : List (List Message)} {merged part : List Message} {message : Message},
      Forall₂ (Group all) parts merged → Group all part message → joined part message →
        (good (dedupeMessage (merged.foldl seenAfter []) message) ↔
          message.role = .user ∨ goodRun parts.flatten part)) : (∀ message ∈ fixed, good message) ↔
      ∀ before run after, inner.flatten = before ++ (run ++ after) → IsRun before run after →
        goodRun (front.flatten ++ before) run := by
  have sides := forall₂_and arranged.innerGroups joins
  have apart := arranged.innerApart
  constructor
  · intro allGood before run after equal isRun
    obtain ⟨earlier, first, last, later, rfl, rfl, rfl⟩ := exists_part_of_run apart
      (nonempty_of_groups arranged.innerGroups) equal isRun.oneSide.isChain isRun.nonempty
    obtain ⟨frontPart, backPart, rfl, frontSides, backSides⟩ := exists_append_of_forall₂ sides.flip
    cases backSides with
    | @cons message _ restMerged _ joinedGroup _ =>
      obtain ⟨group, join⟩ := joinedGroup
      obtain ⟨member, inRun⟩ := exists_mem_of_ne_nil run isRun.nonempty
      have isAssistant : message.role = .assistant := by
        rw [← group.role member (by simp [inRun])]
        exact (isRun.oneSide member inRun member inRun).1
      have oneSide := oneSide_of_group group isAssistant
      have firstEq : first = [] := by
        cases first using reverseRecOn with
        | nil => rfl
        | append_singleton first other =>
          apply absurd _ (isRun.starts other (by simp))
          exact oneSide.sublist fun some inSome => by
            rcases mem_cons.mp inSome with rfl | inSome <;> simp_all
      have lastEq : last = [] := by
        cases last with
        | nil => rfl
        | cons other last =>
          apply absurd _ (isRun.ends other (by simp))
          exact oneSide.sublist fun some inSome => by
            rcases mem_append.mp inSome with inSome | inSome <;> simp_all
      subst firstEq lastEq
      have isFixed : dedupeMessage ((frontMerged ++ frontPart).foldl seenAfter []) message ∈
          fixed := by
        rw [arranged.fixed, mem_dedupeMessages_iff]
        exact ⟨frontPart, message, restMerged, rfl, by rw [foldl_append]⟩
      have before := rel_append arranged.frontGroups
        (frontSides.flip.imp fun _ _ joinedGroup => joinedGroup.1)
      rcases (each before group join).mp (allGood _ isFixed) with isUser | isGood
      · rw [isAssistant] at isUser
        cases isUser
      · simpa using isGood
  · intro runs deduped member
    rw [arranged.fixed, mem_dedupeMessages_iff] at member
    obtain ⟨frontPart, message, restMerged, mergedEq, rfl⟩ := member
    rw [mergedEq] at sides
    obtain ⟨earlier, rest, innerEq, frontSides, backSides⟩ := exists_append_of_forall₂ sides
    cases backSides with
    | @cons part _ later _ joinedGroup laterSides =>
      obtain ⟨group, join⟩ := joinedGroup
      rw [innerEq] at apart runs
      have earlierGroups := frontSides.imp fun _ _ joinedGroup => joinedGroup.1
      have groups := rel_append earlierGroups
        (Forall₂.cons group (laterSides.imp fun _ _ joinedGroup => joinedGroup.1))
      have before := rel_append arranged.frontGroups earlierGroups
      rw [← foldl_append, each before group join]
      by_cases isAssistant : message.role = .assistant
      · right
        rw [flatten_append]
        exact runs _ _ _ (by simp) (isRun_of_group groups apart group isAssistant)
      · exact Or.inl (Role.eq_user_of_ne isAssistant)

/-- No message between the ends is empty exactly when every run between them is
fresh. -/
theorem Arranged.filled_iff : (∀ message ∈ fixed, message.isEmpty = false) ↔
      ∀ before run after, inner.flatten = before ++ (run ++ after) → IsRun before run after →
        Fresh all (front.flatten ++ before) run :=
  arranged.forall_iff (Fresh all) arranged.innerGroups fun groups group _ =>
    filled_dedupeMessage_iff groups group

end

/-- Messages of the assistant answer nothing. -/
theorem answered_not_mem_of_role (roles : ∀ message ∈ messages, message.role = .assistant)
    (id : String) : .answered id ∉ toolEvents messages := by
  intro member
  obtain ⟨message, inMessages, event⟩ := mem_flatMap.mp member
  have isUser := (answered_mem_toolEvents_iff.mp event).1
  rw [roles message inMessages] at isUser
  cases isUser

theorem requested_mem_of_groups (groups : Forall₂ (Group all) parts merged) {id : String} :
    .requested id ∈ toolEvents merged ↔
      .requested id ∈ toolEvents parts.flatten ∧ awaited id all = false := by
  induction groups with
  | nil => simp [toolEvents]
  | @cons part message parts merged group _ ih =>
    have one : .requested id ∈ message.toolEvents ↔
        .requested id ∈ toolEvents part ∧ awaited id all = false := by
      rw [← group.requests, requested_mem_toolEvents_iff]
      exact ⟨And.right, fun member => ⟨(placed_of_group group).requests id member, member⟩⟩
    rw [toolEvents_cons, flatten_cons, toolEvents_append, mem_append, mem_append,
      one, ih, or_and_right]

/-- The tool calls between the ends are paired exactly when no id was requested
again after an answer and every answered id of the front is requested between
the ends. -/
theorem Arranged.paired_iff
    (arranged : Arranged all front inner back frontMerged innerMerged backMerged fixed) :
    Paired (toolEvents fixed) ↔ (∀ id, ¬Reused id all) ∧
      ∀ id, .requested id ∈ toolEvents front.flatten → awaited id all = false →
        .requested id ∈ toolEvents inner.flatten := by
  have parts := arranged.calls.symm
  rw [toolEvents_append, toolEvents_append] at parts
  rw [toolEvents_of_deduped arranged.dedupes,
    ToolEvent.paired_iff parts (answered_not_mem_of_role arranged.frontRole)
      (answered_not_mem_of_role arranged.backRole)]
  apply and_congr_right
  intro once
  apply forall_congr'
  intro id
  have notAtBack := requested_not_mem_back (parts.trans (append_assoc _ _ _).symm)
    (answered_not_mem_of_role arranged.backRole) (once id)
  rw [parts, mem_append, mem_append, requested_mem_of_groups arranged.frontGroups,
    requested_mem_of_groups arranged.innerGroups]
  tauto

/-- What is left between the ends is sound exactly when the kept messages are
cut well. -/
theorem Arranged.sound_iff
    (arranged : Arranged all front inner back frontMerged innerMerged backMerged fixed)
    (frontSide : OneSide front.flatten) (backSide : OneSide back.flatten) :
    Sound fixed ↔ (∀ id, ¬Reused id all) ∧
      Cut all front.flatten inner.flatten back.flatten := by
  have placed : ∀ message ∈ fixed, Placed message := by
    intro deduped member
    obtain ⟨message, inMerged, same⟩ := exists_left_of_forall₂ arranged.dedupes member
    obtain ⟨part, -, group⟩ := exists_left_of_forall₂ arranged.innerGroups inMerged
    have isPlaced := placed_of_group group
    constructor
    · intro id request
      rw [same.role]
      exact isPlaced.requests id ((same.mem_iff rfl).mp request)
    · intro response isResponse
      rw [same.role]
      exact isPlaced.responses response ((same.mem_iff rfl).mp isResponse)
  have apart := isChain_of_deduped arranged.dedupes
    (isChain_append.mp (isChain_append.mp arranged.chain).2.1).1
  have first := head_of_sides arranged.innerGroups arranged.dedupes
  have last := last_of_sides arranged.innerGroups arranged.dedupes
  have filled := arranged.filled_iff
  have paired := arranged.paired_iff
  have messages := paired_toolEvents_iff placed
  constructor
  · intro sound
    obtain ⟨once, requests⟩ := paired.mp (messages.mpr ⟨sound.answers, sound.answered⟩)
    exact ⟨once, frontSide, backSide, first.mpr sound.first, last.mpr sound.last,
      filled.mp sound.filled, requests⟩
  · rintro ⟨once, cut⟩
    obtain ⟨answers, answered⟩ := messages.mp (paired.mpr ⟨once, cut.requests⟩)
    exact ⟨first.mp cut.first, last.mp cut.last, filled.mpr cut.fresh, apart, answers, answered⟩

end Aligned

end Obelus.Conversation
