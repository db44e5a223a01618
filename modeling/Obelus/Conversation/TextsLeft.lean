import Obelus.Conversation.Merged
import Obelus.Data.Gaps

/-!
# Texts that are left

The first passes join neighbouring texts of the assistant, and later passes take
away what stands between others.  Whether two texts of one audience are left as
neighbours is told from the blocks of the messages, with a gap for each block
that is taken away and at the end of each message.
-/

namespace Obelus.Conversation

open Obelus.Data List

def MessageContentBlock.textAudience : MessageContentBlock → Option (Option (List Role))
  | .text content => some content.audience
  | _ => none

/-- Texts that the first pass joins when they are neighbours. -/
def TextsAlike (first second : MessageContentBlock) : Prop :=
  first.textAudience ≠ none ∧ first.textAudience = second.textAudience

instance : DecidableRel TextsAlike := fun _ _ =>
  inferInstanceAs (Decidable (_ ∧ _))

instance : Std.Symm TextsAlike where
  symm _ _ alike := ⟨alike.2 ▸ alike.1, alike.2.symm⟩

instance : IsTrans MessageContentBlock TextsAlike where
  trans _ _ _ alike next := ⟨alike.1, alike.2.trans next.2⟩

/-- The blocks of the messages, with a gap at the end of each message. -/
def blocksOf (messages : List Message) : List (Option MessageContentBlock) :=
  messages.flatMap fun message => message.content.map some ++ [none]

/-- The blocks that are left of the assistant's messages after the signed
thinking `seen`, with a gap for each of the others. -/
def blocksLeft (all : List ToolEvent) (seen : List MessageContentBlock) :
    List (Option MessageContentBlock) → List (Option MessageContentBlock)
  | [] => []
  | none :: rest => none :: blocksLeft all seen rest
  | some block :: rest =>
    if isRemoved [] all .assistant block then none :: blocksLeft all seen rest
    else if isSignedThinking block then
      if block ∈ seen then none :: blocksLeft all seen rest
      else some block :: blocksLeft all (seen ++ [block]) rest
    else some block :: blocksLeft all seen rest

/-- What the assistant's messages hold. -/
def assistantBlocks (messages : List Message) : List MessageContentBlock :=
  (messages.filter fun message => message.role = .assistant).flatMap Message.content

/-- Of a run of the assistant's messages two texts of one audience are left with
nothing but gaps between them. -/
def TextsMeet (all : List ToolEvent) (earlier run : List Message) : Prop :=
  MeetsAcrossGap TextsAlike (blocksLeft all (assistantBlocks earlier) (blocksOf run))

/-- The block without its text and without the result of a tool. -/
def kindOf : MessageContentBlock → MessageContentBlock
  | .text content => .text { content with text := "" }
  | .toolResponse response => .toolResponse ⟨response.id, .ok []⟩
  | other => other

theorem textAudience_kindOf (block : MessageContentBlock) :
    (kindOf block).textAudience = block.textAudience := by
  cases block <;> rfl

theorem textsAlike_kindOf (first second : MessageContentBlock) :
    TextsAlike (kindOf first) (kindOf second) ↔ TextsAlike first second := by
  rw [TextsAlike, TextsAlike, textAudience_kindOf, textAudience_kindOf]

theorem isRemoved_kindOf (before all : List ToolEvent) (role : Role)
    (block : MessageContentBlock) :
    isRemoved before all role (kindOf block) = isRemoved before all role block := by
  cases role <;> cases block <;> rfl

theorem isSignedThinking_kindOf (block : MessageContentBlock) :
    isSignedThinking (kindOf block) = isSignedThinking block := by
  cases block <;> rfl

variable {block item : MessageContentBlock} {part : List Message}

theorem kindOf_of_isSignedThinking (isSigned : isSignedThinking block = true) :
    kindOf block = block := by
  cases block <;> first | rfl | simp [isSignedThinking] at isSigned

theorem kindOf_trimText (block : MessageContentBlock) : kindOf (trimText block) = kindOf block := by
  cases block <;> rfl

variable (all : List ToolEvent) (host : Host) (front seen : List MessageContentBlock)
  (cells : List (Option MessageContentBlock))

theorem kindOf_fixEmptyToolResult (block : MessageContentBlock) :
    kindOf (fixEmptyToolResult host block) = kindOf block := by
  unfold fixEmptyToolResult
  split
  · next id content empty => rw [emptyToolResult_eq_some empty]; rfl
  · rfl

/-- Neighbours that the first pass leaves. -/
def TextsApart (first second : MessageContentBlock) : Prop :=
  ¬TextsAlike first second

instance : DecidableRel TextsApart := fun _ _ =>
  inferInstanceAs (Decidable (¬_))

theorem pushMergingText_of_alike {last : MessageContentBlock} (alike : TextsAlike last item) :
    ∃ joined, pushMergingText (front ++ [last]) item = front ++ [joined] ∧
      kindOf joined = kindOf last := by
  obtain ⟨isText, same⟩ := alike
  cases last with
  | text last =>
    cases item with
    | text text =>
      have audience : last.audience = text.audience := Option.some.inj same
      refine ⟨.text { last with text := last.text ++ text.text }, ?_, rfl⟩
      simp [pushMergingText, audience]
    | _ => simp [MessageContentBlock.textAudience] at same
  | _ => simp [MessageContentBlock.textAudience] at isText

theorem pushMergingText_of_apart {content : List MessageContentBlock}
    (apart : ∀ last ∈ content.getLast?, TextsApart last item) :
    pushMergingText content item = content ++ [item] := by
  unfold pushMergingText
  split
  · next text last isLast =>
    rw [if_neg]
    intro same
    exact apart _ isLast ⟨by simp [MessageContentBlock.textAudience], congrArg some same⟩
  · rfl

theorem kinds_foldl_pushMergingText (last : MessageContentBlock)
    (content : List MessageContentBlock) :
    (content.foldl pushMergingText (front ++ [last])).map kindOf =
      front.map kindOf ++ (content.map kindOf).destutter' TextsApart (kindOf last) := by
  induction content generalizing front last with
  | nil => simp
  | cons item content ih =>
    rw [foldl_cons, map_cons]
    by_cases alike : TextsAlike last item
    · obtain ⟨joined, equal, sameKind⟩ := pushMergingText_of_alike front alike
      have joins : ¬TextsApart (kindOf last) (kindOf item) :=
        not_not.mpr ((textsAlike_kindOf last item).mpr alike)
      rw [equal, ih, sameKind, destutter'_cons_neg _ joins]
    · have apart : TextsApart (kindOf last) (kindOf item) :=
        fun joins => alike ((textsAlike_kindOf last item).mp joins)
      rw [pushMergingText_of_apart (by simpa [TextsApart] using alike), ih,
        destutter'_cons_pos _ apart]
      simp

/-- The kinds of blocks that are left when neighbouring texts are joined. -/
theorem kinds_mergedText (content : List MessageContentBlock) :
    (content.foldl pushMergingText []).map kindOf =
      (content.map kindOf).destutter TextsApart := by
  cases content with
  | nil => rfl
  | cons first content =>
    have start : pushMergingText [] first = [] ++ [first] := pushMergingText_of_apart (by simp)
    rw [foldl_cons, start, kinds_foldl_pushMergingText]
    rfl

theorem kinds_prepare {message : Message} (role : message.role = .assistant) :
    (prepare host message).content.map kindOf =
      (message.content.map kindOf).destutter TextsApart := by
  rw [prepare_of_assistant host role, ← kinds_mergedText]
  simp [kindOf_fixEmptyToolResult, kindOf_trimText]

theorem dedupeContent_kinds (content : List MessageContentBlock) :
    (dedupeContent seen content).1.map kindOf = (dedupeContent seen (content.map kindOf)).1 := by
  induction content generalizing seen with
  | nil => rfl
  | cons block rest ih =>
    rw [map_cons, dedupeContent, dedupeContent, isSignedThinking_kindOf]
    split
    · next isSigned =>
      rw [kindOf_of_isSignedThinking isSigned]
      split
      · exact ih seen
      · simp [ih, kindOf_of_isSignedThinking isSigned]
    · simp [ih]

/-- Deduplicating the blocks that are not removed closes the gaps. -/
theorem reduceOption_blocksLeft : (blocksLeft all seen cells).reduceOption =
      (dedupeContent seen
        (cells.reduceOption.filter fun block => !isRemoved [] all .assistant block)).1 := by
  induction cells generalizing seen with
  | nil => rfl
  | cons cell rest ih =>
    cases cell with
    | none => exact ih seen
    | some block =>
      rw [blocksLeft, reduceOption_cons_of_some]
      split
      · next removed => simp [removed, ih]
      · next left =>
        rw [filter_cons_of_pos (by simpa using left), dedupeContent]
        split
        · split
          · exact ih seen
          · simp [ih]
        · simp [ih]

theorem blocksLeft_kinds : blocksLeft all seen (cells.map (Option.map kindOf)) =
      (blocksLeft all seen cells).map (Option.map kindOf) := by
  induction cells generalizing seen with
  | nil => rfl
  | cons cell rest ih =>
    cases cell with
    | none => simp [blocksLeft, ih]
    | some block =>
      rw [map_cons, Option.map_some, blocksLeft, blocksLeft, isRemoved_kindOf,
        isSignedThinking_kindOf]
      split
      · simp [ih]
      · split
        · next isSigned =>
          rw [kindOf_of_isSignedThinking isSigned]
          split
          · simp [ih]
          · simp [ih, kindOf_of_isSignedThinking isSigned]
        · simp [ih]

theorem distinct_of_notText (notText : block.textAudience = none)
    (other : Option MessageContentBlock) : Distinct TextsAlike (some block) other := by
  cases other with
  | none => trivial
  | some other => exact fun alike => alike.1 notText

theorem blocksLeft_text (isText : block.textAudience ≠ none)
    (rest : List (Option MessageContentBlock)) :
    blocksLeft all seen (some block :: rest) = some block :: blocksLeft all seen rest := by
  cases block with
  | text content => simp [blocksLeft, isRemoved, isSignedThinking]
  | _ => exact absurd rfl isText

/-- A block other than a text leaves itself or a gap, whatever follows it. -/
theorem exists_blocksLeft_cons (block : MessageContentBlock) :
    ∃ cell seenAfter, (cell = none ∨ cell = some block) ∧ ∀ rest,
      blocksLeft all seen (some block :: rest) = cell :: blocksLeft all seenAfter rest := by
  by_cases removed : isRemoved [] all .assistant block = true
  · exact ⟨none, seen, Or.inl rfl, fun rest => by rw [blocksLeft, if_pos removed]⟩
  · by_cases isSigned : isSignedThinking block = true
    · by_cases wasSeen : block ∈ seen
      · exact ⟨none, seen, Or.inl rfl, fun rest => by
          rw [blocksLeft, if_neg removed, if_pos isSigned, if_pos wasSeen]⟩
      · exact ⟨some block, seen ++ [block], Or.inr rfl, fun rest => by
          rw [blocksLeft, if_neg removed, if_pos isSigned, if_neg wasSeen]⟩
    · exact ⟨some block, seen, Or.inr rfl, fun rest => by
        rw [blocksLeft, if_neg removed, if_neg isSigned]⟩

/-- Joining neighbouring texts and taking blocks away do not depend on their
order, as texts are never taken away. -/
theorem blocksLeft_destutter : ∀ seen, blocksLeft all seen (cells.destutter (Distinct TextsAlike)) =
        (blocksLeft all seen cells).destutter (Distinct TextsAlike) ∧
      ∀ first : MessageContentBlock, first.textAudience ≠ none →
        blocksLeft all seen (cells.destutter' (Distinct TextsAlike) (some first)) =
          (blocksLeft all seen cells).destutter' (Distinct TextsAlike) (some first) := by
  induction cells with
  | nil => exact fun seen => ⟨rfl, fun first isText => blocksLeft_text all seen isText []⟩
  | cons cell rest ih =>
    intro seen
    cases cell with
    | none =>
      constructor
      · rw [destutter_none_cons, blocksLeft, blocksLeft, destutter_none_cons, (ih seen).1]
      · intro first isText
        rw [destutter'_none_cons, blocksLeft_text all seen isText, blocksLeft, blocksLeft,
          destutter'_none_cons, (ih seen).1]
    | some block =>
      by_cases isText : block.textAudience = none
      · obtain ⟨left, seenAfter, isLeft, leaves⟩ := exists_blocksLeft_cons all seen block
        have apart := distinct_of_notText isText
        have leftApart : ∀ other, Distinct TextsAlike left other := by
          rcases isLeft with rfl | rfl
          · exact distinct_none
          · exact apart
        have here : blocksLeft all seen ((some block :: rest).destutter (Distinct TextsAlike)) =
            (blocksLeft all seen (some block :: rest)).destutter (Distinct TextsAlike) := by
          rw [destutter_cons_of_distinct apart, leaves, leaves,
            destutter_cons_of_distinct leftApart, (ih seenAfter).1]
        refine ⟨here, fun first isFirst => ?_⟩
        have behind : ∀ cell, (cell = none ∨ cell = some block) →
            Distinct TextsAlike (some first) cell := by
          rintro cell (rfl | rfl)
          · trivial
          · exact fun alike => alike.1 (alike.2.trans isText)
        rw [destutter'_cons_pos _ (behind _ (Or.inr rfl)),
          blocksLeft_text all seen isFirst, ← destutter_cons', here, leaves,
          destutter'_cons_pos _ (behind left isLeft), destutter_cons']
      · have here := (ih seen).2 block isText
        rw [blocksLeft_text all seen isText]
        refine ⟨here, fun first isFirst => ?_⟩
        rw [destutter'_cons, destutter'_cons]
        split
        · rw [blocksLeft_text all seen isFirst, here]
        · exact (ih seen).2 first isFirst

/-- What is left depends on the signed thinking that was seen only. -/
theorem blocksLeft_congr {seen others : List MessageContentBlock}
    (same : ∀ block, isSignedThinking block = true → (block ∈ seen ↔ block ∈ others))
    (cells : List (Option MessageContentBlock)) :
    blocksLeft all seen cells = blocksLeft all others cells := by
  induction cells generalizing seen others with
  | nil => rfl
  | cons cell rest ih =>
    cases cell with
    | none => rw [blocksLeft, blocksLeft, ih same]
    | some block =>
      rw [blocksLeft, blocksLeft]
      split
      · rw [ih same]
      · split
        · next isSigned =>
          have longer : ∀ other, isSignedThinking other = true →
              (other ∈ seen ++ [block] ↔ other ∈ others ++ [block]) := by
            intro other otherSigned
            rw [mem_append, mem_append, same other otherSigned]
          rw [if_congr (same block isSigned) rfl rfl, ih same, ih longer]
        · rw [ih same]

/-- What the passes before deduplication leave of a part of the assistant. -/
def joinedContent (host : Host) (all : List ToolEvent) (part : List Message) :
    List MessageContentBlock :=
  part.flatMap fun message =>
    (prepare host message).content.filter fun block => !isRemoved [] all .assistant block

theorem kinds_blocksOf (part : List Message) : (part.flatMap fun message =>
      ((message.content.map kindOf).destutter TextsApart).map some ++ [none]) =
      ((blocksOf part).map (Option.map kindOf)).destutter (Distinct TextsAlike) := by
  induction part with
  | nil => rfl
  | cons message part ih =>
    have cells : (blocksOf (message :: part)).map (Option.map kindOf) =
        (message.content.map kindOf).map some ++
          none :: (blocksOf part).map (Option.map kindOf) := by
      simp [blocksOf]
    have joined : ((message.content.map kindOf).map some).destutter (Distinct TextsAlike) =
        ((message.content.map kindOf).destutter TextsApart).map some := by
      symm
      apply map_destutter
      intro first _ second _
      rfl
    rw [cells, destutter_append_none_cons, flatMap_cons, ih, joined]
    simp

theorem kinds_joinedContent (all : List ToolEvent)
    (roles : ∀ message ∈ part, message.role = .assistant) :
    (joinedContent host all part).map kindOf =
      (((blocksOf part).map (Option.map kindOf)).destutter
        (Distinct TextsAlike)).reduceOption.filter
          fun block => !isRemoved [] all .assistant block := by
  rw [← kinds_blocksOf]
  induction part with
  | nil => rfl
  | cons message part ih =>
    rw [forall_mem_cons] at roles
    have here : ((prepare host message).content.filter fun block =>
        !isRemoved [] all .assistant block).map kindOf =
          ((message.content.map kindOf).destutter TextsApart).filter fun block =>
            !isRemoved [] all .assistant block := by
      rw [← kinds_prepare host roles.1, filter_map]
      simp [Function.comp_def, isRemoved_kindOf]
    have cells : ∀ content : List MessageContentBlock,
        (content.map some ++ [none]).reduceOption = content := by
      simp [reduceOption]
    have rest := ih roles.2
    rw [joinedContent] at rest
    rw [joinedContent, flatMap_cons, map_append, here, rest, flatMap_cons,
      reduceOption_append, filter_append, cells]

/-- Of a part no two texts of one audience are left as neighbours exactly when
none meet across a gap. -/
theorem isChain_dedupeContent_iff (all : List ToolEvent) (seen : List MessageContentBlock)
    (roles : ∀ message ∈ part, message.role = .assistant) :
    (dedupeContent seen (joinedContent host all part)).1.IsChain TextsApart ↔
      ¬MeetsAcrossGap TextsAlike (blocksLeft all seen (blocksOf part)) := by
  have kinds : ∀ content : List MessageContentBlock,
      content.IsChain TextsApart ↔ (content.map kindOf).IsChain TextsApart := by
    intro content
    rw [isChain_map]
    simp only [TextsApart, textsAlike_kindOf]
    rfl
  have closed : (dedupeContent seen (joinedContent host all part)).1.map kindOf =
      ((blocksLeft all seen ((blocksOf part).map (Option.map kindOf))).destutter
        (Distinct TextsAlike)).reduceOption := by
    rw [dedupeContent_kinds, kinds_joinedContent host all roles, ← reduceOption_blocksLeft,
      (blocksLeft_destutter all _ seen).1]
  have kindsMeet := meetsAcrossGap_map kindOf TextsAlike (blocksLeft all seen (blocksOf part))
  simp only [textsAlike_kindOf] at kindsMeet
  rw [kinds, closed, ← kindsMeet, ← blocksLeft_kinds]
  exact isChain_destutter_iff _

end Obelus.Conversation
