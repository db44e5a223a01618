import Obelus.Conversation.Accepted

/-!
# Repairable conversations

Repairing a conversation gives one that a provider accepts exactly when the
messages the agent sees are repairable: the passes before the ends leave groups
of kept messages, and the ends take away at most one group on each side.
-/

namespace Obelus.Conversation

open Obelus.Data ToolEvent List
open Message (userText)

/-! ## The ends -/

/-- No message, or one of the assistant. -/
def AtMostOneAssistant (messages : List Message) : Prop :=
  messages = [] ∨ ∃ message, messages = [message] ∧ message.role = .assistant

variable {messages : List Message}

theorem AtMostOneAssistant.role (ends : AtMostOneAssistant messages) :
    ∀ message ∈ messages, message.role = .assistant := by
  rcases ends with rfl | ⟨message, rfl, role⟩
  · simp
  · simpa using role

/-- The pass for the ends takes away at most one message of the assistant at
each end. -/
theorem exists_fixLeadTrail (messages : List Message) :
    ∃ lead trail, messages = lead ++ ((fixLeadTrail messages).1 ++ trail) ∧
      AtMostOneAssistant lead ∧ AtMostOneAssistant trail := by
  have leading : ∃ lead, messages = lead ++ (removeLeading messages).1 ∧
      AtMostOneAssistant lead := by
    cases messages with
    | nil => exact ⟨[], rfl, Or.inl rfl⟩
    | cons first rest =>
      by_cases isAssistant : first.role = .assistant
      · exact ⟨[first], by simp [removeLeading, isAssistant], Or.inr ⟨first, rfl, isAssistant⟩⟩
      · exact ⟨[], by simp [removeLeading, isAssistant], Or.inl rfl⟩
  have trailing : ∀ led : List Message, ∃ trail, led = (removeTrailing led).1 ++ trail ∧
      AtMostOneAssistant trail := by
    intro led
    cases led using reverseRecOn with
    | nil => exact ⟨[], rfl, Or.inl rfl⟩
    | append_singleton front last =>
      by_cases isAssistant : last.role = .assistant
      · exact ⟨[last], by simp [removeTrailing, isAssistant], Or.inr ⟨last, rfl, isAssistant⟩⟩
      · exact ⟨[], by simp [removeTrailing, isAssistant], Or.inl rfl⟩
  obtain ⟨lead, leadEq, isLead⟩ := leading
  obtain ⟨trail, trailEq, isTrail⟩ := trailing (removeLeading messages).1
  exact ⟨lead, trail, leadEq.trans (congrArg _ trailEq), isLead, isTrail⟩

/-- When the messages between the ends begin and end with the user, only the
ends are taken away. -/
theorem fixLeadTrail_eq {lead middle trail : List Message} (isLead : AtMostOneAssistant lead)
    (isTrail : AtMostOneAssistant trail) (first : ∀ message ∈ middle.head?, message.role = .user)
    (last : ∀ message ∈ middle.getLast?, message.role = .user) :
    (fixLeadTrail (lead ++ (middle ++ trail))).1 = middle := by
  have trailing : ∀ led, led = middle ++ trail ∨ (middle = [] ∧ led = []) →
      (removeTrailing led).1 = middle := by
    rintro led (rfl | ⟨rfl, rfl⟩)
    · rcases isTrail with rfl | ⟨message, rfl, role⟩
      · rw [append_nil]
        unfold removeTrailing
        cases lastEq : middle.getLast? with
        | none => rfl
        | some message =>
          have isUser := last message lastEq
          simp [isUser]
      · simp [removeTrailing, role]
    · rfl
  apply trailing
  rcases isLead with rfl | ⟨message, rfl, role⟩
  · cases middle with
    | cons head tail =>
      have isUser := first head rfl
      left
      simp [isUser]
    | nil =>
      rcases isTrail with rfl | ⟨message, rfl, role⟩
      · exact Or.inl rfl
      · right
        simp [role]
  · left
    simp [role]

/-- The repair of nothing but the assistant's messages takes everything away
when there are at most two. -/
theorem fixLeadTrail_eq_nil (roles : ∀ message ∈ messages, message.role = .assistant)
    (few : messages.length ≤ 2) : (fixLeadTrail messages).1 = [] := by
  rcases messages with _ | ⟨first, _ | ⟨second, _ | ⟨third, rest⟩⟩⟩
  · rfl
  · simp [fixLeadTrail, removeLeading, removeTrailing, roles first (by simp)]
  · simp [fixLeadTrail, removeLeading, removeTrailing, roles first (by simp),
      roles second (by simp)]
  · simp at few

theorem sound_nil : Sound [] := by
  constructor <;> simp

variable (host : Host) (conversation : List Message)

theorem sound_hello : Sound [userText host "Hello"] := by
  constructor
  · simp [userText]
  · simp [userText]
  · simp [userText, Message.isEmpty, MessageContentBlock.asText]
  · exact isChain_singleton _
  · intro before message after equal response member
    obtain ⟨rfl, rfl, rfl⟩ : before = [] ∧ message = userText host "Hello" ∧
        after = [] := by
      cases before <;> simp_all
    simp [userText] at member
  · intro before message after equal id member
    obtain ⟨rfl, rfl, rfl⟩ : before = [] ∧ message = userText host "Hello" ∧
        after = [] := by
      cases before <;> simp_all
    simp [userText] at member

theorem accepted_populateIfEmpty_iff (messages : List Message) :
    Accepted (populateIfEmpty host messages).1 ↔ Sound messages := by
  unfold populateIfEmpty
  split
  · rename_i empty
    rw [empty]
    exact iff_of_true ⟨sound_hello host, by simp⟩ sound_nil
  · rename_i nonempty
    exact ⟨Accepted.toSound, fun sound => ⟨sound, nonempty⟩⟩

section Repaired

variable {all : List ToolEvent}

theorem atMostOneAssistant_iff {messages deduped : List Message}
    (sides : Forall₂ Deduped messages deduped) :
    AtMostOneAssistant messages ↔ AtMostOneAssistant deduped := by
  rcases sides with _ | ⟨same, _ | ⟨next, rest⟩⟩
  · rfl
  · simp [AtMostOneAssistant, same.role]
  · simp [AtMostOneAssistant]

variable {parts : List (List Message)} {merged front back rest : List Message}

theorem oneSide_of_atMostOne (groups : Forall₂ (Group all) parts merged)
    (ends : AtMostOneAssistant merged) : OneSide parts.flatten := by
  rcases ends with rfl | ⟨message, rfl, role⟩
  · cases groups
    intro left isLeft
    cases isLeft
  · rcases groups with _ | ⟨group, rest⟩
    cases rest
    simpa using oneSide_of_group group role

theorem arranged_of_groups {front inner back : List (List Message)}
    {frontMerged innerMerged backMerged : List Message}
    (frontGroups : Forall₂ (Group all) front frontMerged)
    (innerGroups : Forall₂ (Group all) inner innerMerged)
    (backGroups : Forall₂ (Group all) back backMerged)
    (chain : (frontMerged ++ (innerMerged ++ backMerged)).IsChain fun left right =>
      ¬Joins false left right)
    (calls : toolEvents (frontMerged ++ (innerMerged ++ backMerged)) = settled all)
    (frontEnd : AtMostOneAssistant frontMerged) (backEnd : AtMostOneAssistant backMerged) :
    ∃ frontDeduped fixed backDeduped,
      (dedupeSignedThinking (frontMerged ++ (innerMerged ++ backMerged))).1 =
        frontDeduped ++ (fixed ++ backDeduped) ∧
      frontDeduped.length = frontMerged.length ∧ fixed.length = innerMerged.length ∧
      AtMostOneAssistant frontDeduped ∧ AtMostOneAssistant backDeduped ∧
      Arranged all front inner back frontMerged innerMerged backMerged fixed := by
  have frontSides := forall₂_deduped [] frontMerged
  have innerSides := forall₂_deduped (frontMerged.foldl seenAfter []) innerMerged
  have backSides := forall₂_deduped
    (innerMerged.foldl seenAfter (frontMerged.foldl seenAfter [])) backMerged
  refine ⟨_, _, _, ?_, frontSides.length_eq.symm, innerSides.length_eq.symm,
    (atMostOneAssistant_iff frontSides).mp frontEnd,
    (atMostOneAssistant_iff backSides).mp backEnd, ?_⟩
  · rw [dedupeSignedThinking, dedupeMessages_append, dedupeMessages_append]
  · exact ⟨frontGroups, innerGroups, backGroups, chain, calls, frontEnd.role, backEnd.role, rfl⟩

theorem eq_nil_of_flatten (nonempty : [] ∉ parts) (empty : parts.flatten = []) : parts = [] := by
  cases parts with
  | nil => rfl
  | cons part rest =>
    rw [flatten_cons, append_eq_nil_iff] at empty
    rw [empty.1] at nonempty
    simp at nonempty

theorem length_le_one_of_oneSide (nonempty : [] ∉ parts) (apart : CutApart Together parts)
    (oneSide : OneSide parts.flatten) : parts.length ≤ 1 := by
  by_cases isEmpty : parts.flatten = []
  · rw [eq_nil_of_flatten nonempty isEmpty]
    simp
  · have whole : parts.flatten = [] ++ (parts.flatten ++ []) := by simp
    obtain ⟨earlier, first, last, later, partsEq, before, after⟩ :=
      exists_part_of_run apart nonempty whole oneSide.isChain isEmpty
    have absent : [] ∉ earlier ∧ [] ∉ later := by
      constructor
      · intro member
        apply nonempty
        rw [partsEq]
        exact mem_append_left _ member
      · intro member
        apply nonempty
        rw [partsEq]
        exact mem_append_right _ (mem_cons_of_mem _ member)
    have earlierEq := eq_nil_of_flatten absent.1 (append_eq_nil_iff.mp before.symm).1
    have laterEq := eq_nil_of_flatten absent.2 (append_eq_nil_iff.mp after.symm).2
    rw [partsEq, earlierEq, laterEq]
    simp

theorem length_le_two_of_oneSides (nonempty : [] ∉ parts) (apart : CutApart Together parts)
    (equal : parts.flatten = front ++ back) (frontSide : OneSide front) (backSide : OneSide back) :
    parts.length ≤ 2 := by
  by_cases isEmpty : front = []
  · rw [isEmpty, nil_append] at equal
    rw [← equal] at backSide
    exact (length_le_one_of_oneSide nonempty apart backSide).trans (by decide)
  · have whole : parts.flatten = [] ++ (front ++ back) := equal
    obtain ⟨earlier, first, last, later, rfl, before, rfl⟩ :=
      exists_part_of_run apart nonempty whole frontSide.isChain isEmpty
    have earlierEq : earlier = [] :=
      eq_nil_of_flatten (fun member => nonempty (mem_append_left _ member))
        (append_eq_nil_iff.mp before.symm).1
    subst earlierEq
    have few := length_le_one_of_oneSide
      (fun member => nonempty (mem_cons_of_mem _ member)) (IsChain.of_cons apart)
      (backSide.sublist (subset_append_right last later.flatten))
    simpa using few

section

variable (groups : List.Forall₂ (Group all) parts merged)
include groups

theorem role_of_part {part : List Message} (inParts : part ∈ parts) {left right : Message}
    (isLeft : left ∈ part) (isRight : right ∈ part) : left.role = right.role := by
  obtain ⟨message, -, group⟩ := exists_right_of_forall₂ groups inParts
  rw [group.role left isLeft, group.role right isRight]

/-- A front of one side before a message of the user is at most one group. -/
theorem exists_front_parts (apart : CutApart Together parts) (equal : parts.flatten = front ++ rest)
    (oneSide : OneSide front) (user : ∀ message ∈ rest.head?, message.role = .user)
    (isRest : rest ≠ []) :
    ∃ first later, parts = first ++ later ∧ first.flatten = front ∧ later.flatten = rest ∧
      first.length ≤ 1 := by
  cases front with
  | nil => exact ⟨[], parts, rfl, rfl, equal, by simp⟩
  | cons head tail =>
    have whole : parts.flatten = [] ++ ((head :: tail) ++ rest) := equal
    obtain ⟨earlier, first, last, later, rfl, before, rfl⟩ :=
      exists_part_of_run apart (nonempty_of_groups groups) whole oneSide.isChain (by simp)
    obtain ⟨earlierFlat, rfl⟩ := append_eq_nil_iff.mp before.symm
    have none : [] ∉ earlier := fun member => nonempty_of_groups groups (mem_append_left _ member)
    obtain rfl := eq_nil_of_flatten none earlierFlat
    cases last with
    | nil => exact ⟨[head :: tail], later, by simp, by simp, by simp, by simp⟩
    | cons other last =>
      have sameRole : other.role = head.role :=
        role_of_part groups (mem_append_right _ mem_cons_self) (by simp) (by simp)
      have isUser := user other rfl
      have isAssistant := (oneSide head mem_cons_self head mem_cons_self).1
      rw [isUser, isAssistant] at sameRole
      cases sameRole

/-- A back of one side after a message of the user is at most one group. -/
theorem exists_back_parts (apart : CutApart Together parts) (equal : parts.flatten = rest ++ back)
    (oneSide : OneSide back) (user : ∀ message ∈ rest.getLast?, message.role = .user)
    (isRest : rest ≠ []) :
    ∃ earlier last, parts = earlier ++ last ∧ earlier.flatten = rest ∧ last.flatten = back ∧
      last.length ≤ 1 := by
  cases back with
  | nil =>
    rw [append_nil] at equal
    exact ⟨parts, [], by simp, equal, rfl, by simp⟩
  | cons head tail =>
    have whole : parts.flatten = rest ++ ((head :: tail) ++ []) := by simpa using equal
    obtain ⟨earlier, first, last, later, rfl, rfl, after⟩ :=
      exists_part_of_run apart (nonempty_of_groups groups) whole oneSide.isChain (by simp)
    obtain ⟨rfl, laterFlat⟩ := append_eq_nil_iff.mp after.symm
    have none : [] ∉ later := fun member =>
      nonempty_of_groups groups (mem_append_right _ (mem_cons_of_mem _ member))
    obtain rfl := eq_nil_of_flatten none laterFlat
    cases first using reverseRecOn with
    | nil => exact ⟨earlier, [head :: tail], by simp, by simp, by simp, by simp⟩
    | append_singleton first other =>
      have sameRole : other.role = head.role :=
        role_of_part groups (mem_append_right _ mem_cons_self) (by simp) (by simp)
      have isUser := user other (by simp [← append_assoc])
      have isAssistant := (oneSide head mem_cons_self head mem_cons_self).1
      rw [isUser, isAssistant] at sameRole
      cases sameRole

theorem atMostOneAssistant_of_parts (few : parts.length ≤ 1) (oneSide : OneSide parts.flatten) :
    AtMostOneAssistant merged := by
  rcases groups with _ | ⟨group, _ | ⟨next, rest⟩⟩
  · exact Or.inl rfl
  · rename_i part message
    obtain ⟨member, inPart⟩ := exists_mem_of_ne_nil part group.nonempty
    refine Or.inr ⟨message, rfl, ?_⟩
    rw [← group.role member inPart]
    exact (oneSide member (by simpa using inPart) member (by simpa using inPart)).1
  · simp at few

end

/-- Of a cut, front and back are of one side each, and what is between them begins
and ends with the user. -/
structure CutSides (front inner back : List Message) : Prop where
  frontSide : OneSide front
  backSide : OneSide back
  first : ∀ message ∈ inner.head?, message.role = .user
  last : ∀ message ∈ inner.getLast?, message.role = .user

section Ends

variable {joined : List Message → Message → Prop} {property : List Message → Prop}
  {cut : List Message → List Message → List Message → Prop}

/-- A property of what is left between the ends is a property of a cut. -/
def CutProperty (all : List ToolEvent) (parts : List (List Message))
    (joined : List Message → Message → Prop) (property : List Message → Prop)
    (cut : List Message → List Message → List Message → Prop) : Prop :=
  ∀ (front inner back : List (List Message))
    (frontMerged innerMerged backMerged fixed : List Message),
    parts = front ++ (inner ++ back) → List.Forall₂ joined front frontMerged →
      List.Forall₂ joined inner innerMerged →
        Arranged all front inner back frontMerged innerMerged backMerged fixed →
          OneSide front.flatten → OneSide back.flatten →
            (property fixed ↔ cut front.flatten inner.flatten back.flatten)

variable {parts : List (List Message)} {merged : List Message}

theorem exists_cut (groups : Forall₂ (Group all) parts merged)
    (joins : Forall₂ joined parts merged)
    (chain : merged.IsChain fun left right => ¬Joins false left right)
    (calls : toolEvents merged = settled all)
    (cutProperty : CutProperty all parts joined property cut)
    (holds : property (fixLeadTrail (dedupeSignedThinking merged).1).1) :
    ∃ front inner back, parts.flatten = front ++ (inner ++ back) ∧ cut front inner back := by
  obtain ⟨lead, trail, dedupedEq, isLead, isTrail⟩ :=
    exists_fixLeadTrail (dedupeSignedThinking merged).1
  have sides := forall₂_deduped [] merged
  rw [← dedupeSignedThinking, dedupedEq] at sides
  obtain ⟨frontMerged, rest, rfl, frontSides, restSides⟩ := exists_append_of_forall₂ sides
  obtain ⟨innerMerged, backMerged, rfl, innerSides, backSides⟩ := exists_append_of_forall₂ restSides
  obtain ⟨front, rest, rfl, frontGroups, restGroups⟩ :=
    exists_append_of_forall₂ (forall₂_and groups joins)
  obtain ⟨inner, back, rfl, innerGroups, backGroups⟩ := exists_append_of_forall₂ restGroups
  have frontEnd := (atMostOneAssistant_iff frontSides).mpr isLead
  have backEnd := (atMostOneAssistant_iff backSides).mpr isTrail
  have isFront := frontGroups.imp fun _ _ here => here.1
  have isBack := backGroups.imp fun _ _ here => here.1
  obtain ⟨frontDeduped, fixed, backDeduped, equal, frontLength, innerLength, -, -, arranged⟩ :=
    arranged_of_groups isFront (innerGroups.imp fun _ _ here => here.1) isBack chain calls
      frontEnd backEnd
  have fixedEq : fixed = (fixLeadTrail (dedupeSignedThinking
      (frontMerged ++ (innerMerged ++ backMerged))).1).1 := by
    have split := equal.symm.trans dedupedEq
    have tails := (append_inj split (frontLength.trans frontSides.length_eq)).2
    exact (append_inj tails (innerLength.trans innerSides.length_eq)).1
  rw [← fixedEq] at holds
  refine ⟨_, _, _, by simp, (cutProperty _ _ _ _ _ _ _ rfl (frontGroups.imp fun _ _ here => here.2)
    (innerGroups.imp fun _ _ here => here.2) arranged (oneSide_of_atMostOne isFront frontEnd)
    (oneSide_of_atMostOne isBack backEnd)).mp holds⟩

theorem property_of_cut (groups : Forall₂ (Group all) parts merged)
    (joins : Forall₂ joined parts merged)
    (chain : merged.IsChain fun left right => ¬Joins false left right)
    (calls : toolEvents merged = settled all)
    (cutProperty : CutProperty all parts joined property cut) (nothing : property [])
    {front inner back : List Message} (equal : parts.flatten = front ++ (inner ++ back))
    (sides : CutSides front inner back) (isCut : cut front inner back) :
    property (fixLeadTrail (dedupeSignedThinking merged).1).1 := by
  have apart := cutApart_of_groups groups chain
  by_cases isInner : inner = []
  · -- the kept messages are of the assistant, in at most two groups
    subst isInner
    have roles : ∀ message ∈ (dedupeSignedThinking merged).1, message.role = .assistant := by
      intro deduped member
      obtain ⟨message, inMerged, same⟩ := exists_left_of_forall₂ (forall₂_deduped [] merged) member
      obtain ⟨part, inParts, group⟩ := exists_left_of_forall₂ groups inMerged
      obtain ⟨keptMessage, inPart⟩ := exists_mem_of_ne_nil part group.nonempty
      rw [same.role, ← group.role keptMessage inPart]
      have inKept : keptMessage ∈ parts.flatten := mem_flatten.mpr ⟨part, inParts, inPart⟩
      rw [equal] at inKept
      rcases mem_append.mp inKept with inFront | inBack
      · exact (sides.frontSide keptMessage inFront keptMessage inFront).1
      · exact (sides.backSide keptMessage inBack keptMessage inBack).1
    have few : (dedupeSignedThinking merged).1.length ≤ 2 := by
      rw [dedupeSignedThinking, ← (forall₂_deduped [] merged).length_eq, ← groups.length_eq]
      exact length_le_two_of_oneSides (nonempty_of_groups groups) apart equal sides.frontSide
        sides.backSide
    rw [fixLeadTrail_eq_nil roles few]
    exact nothing
  · obtain ⟨first, rest, rfl, rfl, restEq, firstFew⟩ := exists_front_parts groups apart equal
      sides.frontSide (by simpa [isInner, head?_append] using sides.first) (by simp [isInner])
    obtain ⟨frontMerged, restMerged, rfl, frontGroups, restGroups⟩ :=
      exists_append_of_forall₂ (forall₂_and groups joins).flip
    have restChain := (isChain_append.mp chain).2.1
    have rest := restGroups.flip.imp fun _ _ here => here.1
    obtain ⟨middle, last, rfl, rfl, rfl, lastFew⟩ := exists_back_parts rest
      (cutApart_of_groups rest restChain) restEq sides.backSide sides.last isInner
    obtain ⟨innerMerged, backMerged, rfl, innerGroups, backGroups⟩ :=
      exists_append_of_forall₂ restGroups
    have isFront := frontGroups.flip.imp fun _ _ here => here.1
    have isBack := backGroups.flip.imp fun _ _ here => here.1
    obtain ⟨frontDeduped, fixed, backDeduped, dedupedEq, -, -, isLead, isTrail, arranged⟩ :=
      arranged_of_groups isFront (innerGroups.flip.imp fun _ _ here => here.1) isBack chain calls
        (atMostOneAssistant_of_parts isFront firstFew sides.frontSide)
        (atMostOneAssistant_of_parts isBack lastFew sides.backSide)
    have heads := head_of_sides arranged.innerGroups arranged.dedupes
    have lasts := last_of_sides arranged.innerGroups arranged.dedupes
    rw [dedupedEq, fixLeadTrail_eq isLead isTrail (heads.mp sides.first) (lasts.mp sides.last)]
    exact (cutProperty _ _ _ _ _ _ _ rfl (frontGroups.flip.imp fun _ _ here => here.2)
      (innerGroups.flip.imp fun _ _ here => here.2) arranged sides.frontSide sides.backSide).mpr
        isCut

end Ends

theorem Cut.sides {inner : List Message} (cut : Cut all front inner back) :
    CutSides front inner back :=
  ⟨cut.frontSide, cut.backSide, cut.first, cut.last⟩

/-- What is left between the ends is sound when the kept messages are cut well. -/
theorem cutProperty_sound (parts : List (List Message)) :
    CutProperty all parts (Group all) Sound fun front inner back =>
      (∀ id, ¬Reused id all) ∧ Cut all front inner back :=
  fun _ _ _ _ _ _ _ _ _ _ arranged => arranged.sound_iff

end Repaired

/-! ## The whole conversation -/

theorem fixMessages_eq (messages : List Message) :
    (fixMessages host messages).1 = (populateIfEmpty host (fixLeadTrail
      (dedupeSignedThinking (merged host messages)).1).1).1 := by
  rfl

theorem mem_keeping {all before : List ToolEvent} {message : Message}
    (member : message ∈ keeping all before messages) : message ∈ messages := by
  induction messages generalizing before with
  | nil => cases member
  | cons head rest ih =>
    rw [keeping] at member
    split at member
    · rcases mem_cons.mp member with rfl | inRest
      · exact mem_cons_self
      · exact mem_cons_of_mem _ (ih inRest)
    · exact mem_cons_of_mem _ (ih member)

theorem length_keeping_le (all before : List ToolEvent) (messages : List Message) :
    (keeping all before messages).length ≤ messages.length := by
  induction messages generalizing before with
  | nil => exact Nat.le_refl 0
  | cons head rest ih =>
    rw [keeping]
    split
    · exact Nat.succ_le_succ (ih _)
    · exact (ih _).trans (Nat.le_succ _)

theorem length_le_length_flatten {parts : List (List Message)} (nonempty : [] ∉ parts) :
    parts.length ≤ parts.flatten.length := by
  induction parts with
  | nil => exact Nat.le_refl 0
  | cons part rest ih =>
    have tail := ih fun member => nonempty (mem_cons_of_mem _ member)
    have isPart : part ≠ [] := by
      rintro rfl
      exact nonempty mem_cons_self
    have positive := length_pos_iff.mpr isPart
    rw [length_cons, flatten_cons, length_append]
    omega

/-- The agent sees all messages of the repair. -/
theorem fixMessages_visible (visible : ∀ message ∈ messages, message.metadata.agentVisible = true) :
    ∀ message ∈ (fixMessages host messages).1, message.metadata.agentVisible = true := by
  obtain ⟨parts, keptEq, groups, -, -⟩ := exists_groups host messages
  obtain ⟨lead, trail, dedupedEq, -, -⟩ :=
    exists_fixLeadTrail (dedupeSignedThinking (merged host messages)).1
  have seen : ∀ message ∈ (dedupeSignedThinking (merged host messages)).1,
      message.metadata.agentVisible = true := by
    intro deduped member
    obtain ⟨message, inMerged, same⟩ :=
      exists_left_of_forall₂ (forall₂_deduped [] (merged host messages)) member
    obtain ⟨part, inParts, group⟩ := exists_left_of_forall₂ groups inMerged
    rw [same.metadata]
    apply group.agentVisible
    intro keptMessage inPart
    apply visible
    apply mem_keeping
    rw [← kept, keptEq]
    exact mem_flatten.mpr ⟨part, inParts, inPart⟩
  rw [fixMessages_eq, populateIfEmpty]
  split
  · simp [userText]
  · intro message member
    apply seen
    rw [dedupedEq]
    exact mem_append_right _ (mem_append_left _ member)

/-- The repair gives no more messages than there were. -/
theorem length_fixMessages_le (nonempty : messages ≠ []) :
    (fixMessages host messages).1.length ≤ messages.length := by
  obtain ⟨parts, keptEq, groups, -, -⟩ := exists_groups host messages
  obtain ⟨lead, trail, dedupedEq, -, -⟩ :=
    exists_fixLeadTrail (dedupeSignedThinking (merged host messages)).1
  have lengths : (dedupeSignedThinking (merged host messages)).1.length ≤ messages.length := by
    rw [dedupeSignedThinking, ← (forall₂_deduped [] (merged host messages)).length_eq,
      ← groups.length_eq]
    apply (length_le_length_flatten (nonempty_of_groups groups)).trans
    rw [← keptEq]
    exact length_keeping_le _ _ messages
  rw [fixMessages_eq, populateIfEmpty]
  split
  · exact length_pos_iff.mpr nonempty
  · rw [dedupedEq, length_append, length_append] at lengths
    exact (Nat.le_add_right _ _).trans ((Nat.le_add_left _ _).trans lengths)

/-- The slots of the messages the agent sees are filled in order. -/
theorem agentVisible_fillSlots {fixed : List Message}
    (visible : ∀ message ∈ fixed, message.metadata.agentVisible = true) (index : Nat)
    (conversation : List Message) :
    agentVisible ((shadowMap index conversation).filterMap (fillSlot fixed)) =
      (fixed.drop index).take (agentVisible conversation).length := by
  induction conversation generalizing index with
  | nil => simp [shadowMap, agentVisible]
  | cons message rest ih =>
    cases isVisible : message.metadata.agentVisible with
    | true =>
      have count : (agentVisible (message :: rest)).length =
          (agentVisible rest).length + 1 := by
        simp [agentVisible, isVisible]
      rw [shadowMap, if_pos isVisible, count, filterMap_cons, fillSlot]
      cases found : fixed[index]? with
      | none =>
        have short : fixed.length ≤ index := getElem?_eq_none_iff.mp found
        simp only [ih, drop_eq_nil_of_le short,
          drop_eq_nil_of_le (Nat.le_succ_of_le short), take_nil]
      | some slot =>
        have inFixed : slot ∈ fixed := mem_of_getElem? found
        obtain ⟨inBounds, isSlot⟩ := List.getElem?_eq_some_iff.mp found
        have tail := ih (index + 1)
        simp only [agentVisible] at tail ⊢
        rw [filter_cons_of_pos (by simpa using visible slot inFixed), tail,
          drop_eq_getElem_cons inBounds, take_succ_cons, isSlot]
    | false =>
      have count : (agentVisible (message :: rest)).length = (agentVisible rest).length := by
        simp [agentVisible, isVisible]
      rw [shadowMap, count, ← ih index]
      simp [fillSlot, agentVisible, isVisible]

theorem fixConversation_eq :
    (fixConversation host conversation).1 = (shadowMap 0 conversation).filterMap
      (fillSlot (fixMessages host (agentVisible conversation)).1) := by
  unfold fixConversation
  rfl

/-- What the agent sees of a conversation is what the agent sees. -/
theorem fixMessages_agentVisible : ∀ message ∈ (fixMessages host (agentVisible conversation)).1,
      message.metadata.agentVisible = true := by
  apply fixMessages_visible
  intro message member
  exact (mem_filter.mp member).2

/-- The agent sees as many of the repaired messages as there are slots for them. -/
theorem agentVisible_fixConversation : agentVisible (fixConversation host conversation).1 =
      (fixMessages host (agentVisible conversation)).1.take
        (agentVisible conversation).length := by
  rw [fixConversation_eq]
  exact agentVisible_fillSlots (fixMessages_agentVisible host conversation) 0 conversation

/-- The messages the agent sees after the repair are accepted exactly when those
it saw before are repairable. -/
theorem fixConversation_accepted_iff (host : Host) (conversation : List Message) :
    Accepted (agentVisible (fixConversation host conversation).1) ↔
      Repairable (agentVisible conversation) := by
  have result := agentVisible_fixConversation host conversation
  by_cases isEmpty : agentVisible conversation = []
  · have nothing : agentVisible (fixConversation host conversation).1 = [] := by
      rw [result, isEmpty]
      rfl
    rw [nothing, isEmpty]
    exact iff_of_false (fun accepted => accepted.nonempty rfl)
      fun repairable => repairable.nonempty rfl
  · rw [take_of_length_le (length_fixMessages_le host isEmpty)] at result
    obtain ⟨parts, keptEq, groups, chain, calls⟩ := exists_groups host (agentVisible conversation)
    rw [result, fixMessages_eq, accepted_populateIfEmpty_iff]
    constructor
    · intro sound
      obtain ⟨front, inner, back, equal, once, cut⟩ :=
        exists_cut groups groups chain calls (cutProperty_sound parts) sound
      exact ⟨isEmpty, once, front, inner, back, keptEq.trans equal, cut⟩
    · rintro ⟨-, once, front, inner, back, equal, cut⟩
      exact property_of_cut groups groups chain calls (cutProperty_sound parts) sound_nil
        (keptEq.symm.trans equal) cut.sides ⟨once, cut⟩

/-! ## Two messages of the assistant at the front -/

def plainHost : Host where
  timestamp := 0
  nfc text := text
  decodeBase64 _ := none

def textMessage (role : Role) (userVisible : Bool) (text : String) : Message where
  id := none
  role
  created := 0
  content := [.text { text, audience := none }]
  metadata := { userVisible }

/-- The first message is for the user and the agent, the second one for the
agent only, so merging leaves both. -/
def twoLeading : List Message :=
  [textMessage .assistant true "Hello", textMessage .assistant false "Summary",
    textMessage .user true "Go on"]

/-- The pass for the ends takes only the first of them away. -/
theorem not_accepted_twoLeading :
    (agentVisible (fixConversation plainHost twoLeading).1).map Message.role =
      [.assistant, .user] ∧ ¬Accepted (agentVisible (fixConversation plainHost twoLeading).1) := by
  have roles : (agentVisible (fixConversation plainHost twoLeading).1).map Message.role =
      [.assistant, .user] := by decide +kernel
  refine ⟨roles, fun accepted => ?_⟩
  cases equal : agentVisible (fixConversation plainHost twoLeading).1 with
  | nil => exact accepted.nonempty equal
  | cons first rest =>
    have isUser := accepted.first first (by rw [equal]; rfl)
    rw [equal, map_cons, isUser] at roles
    cases roles

/-!
## Messages the agent does not see

Repairing a conversation puts the repaired messages into the slots of the
messages the agent saw and keeps every other message in its slot.  Nothing that
the repair made is lost as long as there is a slot for it, and the only message
without one is the placeholder of a conversation of which the agent sees nothing.
-/

open List

/-- The messages that are not for the agent. -/
def agentHidden (messages : List Message) : List Message :=
  messages.filter fun message => !message.metadata.agentVisible

/-- The messages that are not for the agent stay, and those for the agent are
the repaired ones. -/
structure LeavesHiddenAlone (host : Host) (conversation : List Message) : Prop where
  hidden : agentHidden (fixConversation host conversation).1 = agentHidden conversation
  visible : agentVisible (fixConversation host conversation).1 =
    (fixMessages host (agentVisible conversation)).1

/-- Slots that are filled with messages for the agent hide what was hidden. -/
theorem agentHidden_fillSlots {fixed : List Message}
    (visible : ∀ message ∈ fixed, message.metadata.agentVisible = true) (index : Nat)
    (conversation : List Message) :
    agentHidden ((shadowMap index conversation).filterMap (fillSlot fixed)) =
      agentHidden conversation := by
  induction conversation generalizing index with
  | nil => rfl
  | cons message rest ih =>
    cases isVisible : message.metadata.agentVisible with
    | true =>
      have same : agentHidden (message :: rest) = agentHidden rest := by
        simp [agentHidden, isVisible]
      rw [shadowMap, if_pos isVisible, same, filterMap_cons, fillSlot]
      cases found : fixed[index]? with
      | none => exact ih (index + 1)
      | some slot =>
        have seen := visible slot (mem_of_getElem? found)
        rw [← ih (index + 1)]
        simp [agentHidden, seen]
    | false =>
      have kept : agentHidden (message :: rest) = message :: agentHidden rest := by
        simp [agentHidden, isVisible]
      rw [shadowMap, kept, ← ih index]
      simp [fillSlot, agentHidden, isVisible]

theorem agentHidden_fixConversation (host : Host) (conversation : List Message) :
    agentHidden (fixConversation host conversation).1 = agentHidden conversation := by
  rw [fixConversation_eq]
  exact agentHidden_fillSlots (fixMessages_agentVisible host conversation) 0 conversation

/-- The repair always leaves a message for the agent. -/
theorem fixMessages_ne_nil (host : Host) (messages : List Message) :
    (fixMessages host messages).1 ≠ [] := by
  rw [fixMessages_eq, populateIfEmpty]
  split
  · exact cons_ne_nil _ _
  · assumption

/-- The repair leaves the hidden messages alone and loses none of the others
exactly when there is a message for the agent. -/
theorem leavesHiddenAlone_iff (host : Host) (conversation : List Message) :
    LeavesHiddenAlone host conversation ↔ agentVisible conversation ≠ [] := by
  have result := agentVisible_fixConversation host conversation
  constructor
  · intro alone noSlot
    apply fixMessages_ne_nil host (agentVisible conversation)
    rw [← alone.visible, result, noSlot]
    exact take_zero
  · intro nonempty
    constructor
    · exact agentHidden_fixConversation host conversation
    · rw [result]
      exact take_of_length_le (length_fixMessages_le host nonempty)

/-- A conversation with one message that only the user sees. -/
def onlyForTheUser : List Message :=
  [{ textMessage .assistant true "Note" with metadata := { agentVisible := false } }]

/-- The placeholder is announced as an issue and is not in the conversation. -/
theorem not_leavesHiddenAlone_onlyForTheUser : fixConversation plainHost onlyForTheUser =
      (onlyForTheUser, ["Added placeholder user message to empty conversation"]) ∧
        ¬LeavesHiddenAlone plainHost onlyForTheUser := by
  constructor
  · decide +kernel
  · intro alone
    have lost : (fixMessages plainHost (agentVisible onlyForTheUser)).1 ≠
        agentVisible (fixConversation plainHost onlyForTheUser).1 := by decide +kernel
    exact lost alone.visible.symm

end Obelus.Conversation
