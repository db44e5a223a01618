import Obelus.Conversation.Message
import Obelus.Data.Parts

/-!
# Messages that are streamed

A provider streams a message as deltas of one block each.  A delta with the id
of the last message extends it: a text joins a text for the same audience, and
thinking joins thinking that has no signature yet or has the signature of the
delta.  The blocks of the message are then the deltas cut into groups, and
reading them gives what was streamed.
-/

namespace Obelus.Conversation

open Obelus.Data List

universe u

/-- A message with the inference it came from, if it is known. -/
structure StreamedMessage (Inference : Type u) extends Message where
  inference : Option Inference

variable {Inference : Type u}

namespace StreamedMessage

/-- The inference and the output limit of the other message are taken over. -/
def withUpdate (existing message : StreamedMessage Inference) : StreamedMessage Inference :=
  { existing with
    inference := message.inference <|> existing.inference
    metadata := { existing.metadata with
      outputTokenLimitReached := existing.metadata.outputTokenLimitReached ||
        message.metadata.outputTokenLimitReached } }

def withVisibility (message : StreamedMessage Inference) (userVisible agentVisible : Bool) :
    StreamedMessage Inference :=
  { message with metadata := { message.metadata with userVisible, agentVisible } }

/-- The existing message is the one that a message without content is about. -/
def updates (message existing : StreamedMessage Inference) : Bool :=
  existing.role = message.role && existing.metadata.userVisible &&
    (!message.metadata.outputTokenLimitReached ||
      (message.id.isSome && existing.id = message.id))

end StreamedMessage

/-- The last message that has the property is changed, if there is one. -/
def modifyLast? (isFound : StreamedMessage Inference → Bool)
    (change : StreamedMessage Inference → StreamedMessage Inference) :
    List (StreamedMessage Inference) → Option (List (StreamedMessage Inference))
  | [] => none
  | message :: rest =>
    match modifyLast? isFound change rest with
    | some changed => some (message :: changed)
    | none => if isFound message then some (change message :: rest) else none

/-- The content of the last message with the content of the message that
continues it. -/
def extendContent (content new : List MessageContentBlock) : List MessageContentBlock :=
  match content.getLast?, new.getLast? with
  | some (.text last), some (.text text) =>
    if new.length = 1 ∧ last.audience = text.audience then
      content.dropLast ++ [.text { last with text := last.text ++ text.text }]
    else content ++ new
  | some (.thinking last lastSignature), some (.thinking thinking signature) =>
    -- thinking that arrives unsigned after a signature belongs to the next block
    if new.length = 1 ∧ (lastSignature = "" ∨ signature = lastSignature) then
      content.dropLast ++
        [.thinking (last ++ thinking) (if signature ≠ "" then signature else lastSignature)]
    else content ++ new
  | _, _ => content ++ new

/-- `Conversation::push`. -/
def push (conversation : List (StreamedMessage Inference)) (message : StreamedMessage Inference) :
    List (StreamedMessage Inference) :=
  if message.content = [] ∧
      (message.inference.isSome ∨ message.metadata.outputTokenLimitReached) then
    match modifyLast? message.updates (·.withUpdate message) conversation with
    | some updated => updated
    | none =>
      if message.metadata.outputTokenLimitReached then
        conversation ++ [message.withVisibility true false]
      else conversation
  else
    match conversation.getLast?.filter fun last => last.id.isSome && last.id = message.id with
    | some last =>
      conversation.dropLast ++
        [{ last.withUpdate message with content := extendContent last.content message.content }]
    | none => conversation ++ [message]

/-- The one block of a delta. -/
inductive DeltaBlock
  | text (content : TextContent)
  | thinking (part signature : String)

def DeltaBlock.toBlock : DeltaBlock → MessageContentBlock
  | .text content => .text content
  | .thinking part signature => .thinking part signature

open DeltaBlock (toBlock)

def MessageContentBlock.asDelta : MessageContentBlock → Option DeltaBlock
  | .text content => some (.text content)
  | .thinking part signature => some (.thinking part signature)
  | _ => none

/-- What a delta says besides the role and the id that it shares with the
others. -/
structure Delta (Inference : Type u) where
  block : DeltaBlock
  created : Int
  metadata : MessageMetadata
  inference : Option Inference

def Delta.message (role : Role) (id : String) (delta : Delta Inference) :
    StreamedMessage Inference where
  id := some id
  role
  created := delta.created
  content := [delta.block.toBlock]
  metadata := delta.metadata
  inference := delta.inference

def pushDeltas (role : Role) (id : String) (conversation : List (StreamedMessage Inference))
    (deltas : List (Delta Inference)) : List (StreamedMessage Inference) :=
  deltas.foldl (fun pushed delta => push pushed (delta.message role id)) conversation

/-- A character that is read, and whom it is for. -/
inductive Reading
  | text (audience : Option (List Role)) (c : Char)
  | thinking (c : Char)

def MessageContentBlock.reading : MessageContentBlock → List Reading
  | .text content => content.text.toList.map (.text content.audience)
  | .thinking part _ => part.toList.map .thinking
  | _ => []

/-- The block was put together from the deltas: texts for one audience, or
thinking of which no part without the signature comes after a part with it. -/
inductive MadeOf : MessageContentBlock → List DeltaBlock → Prop
  | text (audience : Option (List Role)) {texts : List String} (nonempty : texts ≠ []) :
      MadeOf (.text ⟨String.join texts, audience⟩)
        (texts.map fun text => .text ⟨text, audience⟩)
  | unsigned {parts : List String} (nonempty : parts ≠ []) :
      MadeOf (.thinking (String.join parts) "") (parts.map fun part => .thinking part "")
  | signed {before parts : List String} {signature : String} (isSigned : signature ≠ "")
      (nonempty : parts ≠ []) :
      MadeOf (.thinking (String.join (before ++ parts)) signature)
        ((before.map fun part => .thinking part "") ++
          parts.map fun part => .thinking part signature)

/-- Two neighbouring blocks that are rightly two: texts for two audiences, or
thinking after a signature. -/
def Apart : MessageContentBlock → MessageContentBlock → Prop
  | .text left, .text right => left.audience ≠ right.audience
  | .thinking _ signature, .thinking _ _ => signature ≠ ""
  | _, _ => True

/-- The blocks are the deltas, joined without loss. -/
structure Coalesced (blocks : List MessageContentBlock) (deltas : List DeltaBlock) : Prop where
  groups : ∃ groups, groups.flatten = deltas ∧ List.Forall₂ MadeOf blocks groups
  reading : blocks.flatMap MessageContentBlock.reading =
    deltas.flatMap fun delta => delta.toBlock.reading
  apart : blocks.IsChain Apart

/-- A delta changes only the last block. -/
theorem extendContent_concat (front : List MessageContentBlock) (last : MessageContentBlock)
    (block : DeltaBlock) : extendContent (front ++ [last]) [block.toBlock] =
      front ++ extendContent [last] [block.toBlock] := by
  unfold extendContent
  cases last <;> cases block <;>
    simp only [getLast?_concat, getLast?_singleton, toBlock, dropLast_concat,
      append_assoc] <;>
    split <;> rfl

variable (block : DeltaBlock) (content : List MessageContentBlock)

theorem madeOf_toBlock : MadeOf block.toBlock [block] := by
  cases block with
  | text content =>
    have made := MadeOf.text content.audience (cons_ne_nil content.text [])
    simpa [String.join, toBlock] using made
  | thinking part signature =>
    by_cases isSigned : signature = ""
    · subst isSigned
      have made := MadeOf.unsigned (cons_ne_nil part [])
      simpa [String.join, toBlock] using made
    · have made := @MadeOf.signed [] [part] signature isSigned (cons_ne_nil part [])
      simpa [String.join, toBlock] using made

theorem join_concat (parts : List String) (part : String) :
    String.join (parts ++ [part]) = String.join parts ++ part := by
  simp [String.join]

theorem join_append_concat (front parts : List String) (part : String) :
    String.join (front ++ parts) ++ part = String.join (front ++ (parts ++ [part])) := by
  rw [← join_concat, append_assoc]

/-- A text for the same audience joins the text before it. -/
theorem madeOf_concat_text {audience : Option (List Role)} {texts : List String}
    (text : String) : MadeOf (.text ⟨String.join texts ++ text, audience⟩)
      ((texts.map fun text => DeltaBlock.text ⟨text, audience⟩) ++ [.text ⟨text, audience⟩]) := by
  have made := MadeOf.text audience (append_ne_nil_of_right_ne_nil texts (cons_ne_nil text []))
  simpa [join_concat] using made

variable {parts : List String} {group deltas : List DeltaBlock} {blocks : List MessageContentBlock}

/-- Thinking joins unsigned thinking and brings its signature. -/
theorem madeOf_concat_unsigned (part signature : String) :
    MadeOf (.thinking (String.join parts ++ part) signature)
      ((parts.map fun part => DeltaBlock.thinking part "") ++ [.thinking part signature]) := by
  by_cases isSigned : signature = ""
  · subst isSigned
    have made := MadeOf.unsigned (append_ne_nil_of_right_ne_nil parts (cons_ne_nil part []))
    simpa using made
  · have made := @MadeOf.signed parts [part] signature isSigned (cons_ne_nil part [])
    simpa using made

/-- Thinking joins thinking with its signature. -/
theorem madeOf_concat_signed {before : List String} {signature : String} (isSigned : signature ≠ "")
    (part : String) : MadeOf (.thinking (String.join (before ++ parts) ++ part) signature)
      ((before.map fun part => DeltaBlock.thinking part "") ++
        (parts.map fun part => .thinking part signature) ++ [.thinking part signature]) := by
  rw [join_append_concat]
  have made := @MadeOf.signed before (parts ++ [part]) signature isSigned (by simp)
  simpa using made

/-- A delta joins the last block or stands next to it. -/
theorem extendContent_singleton {last : MessageContentBlock} (made : MadeOf last group)
    (block : DeltaBlock) : (∃ joined, extendContent [last] [block.toBlock] = [joined] ∧
        MadeOf joined (group ++ [block]) ∧ ∀ before, Apart before last → Apart before joined) ∨
      (extendContent [last] [block.toBlock] = [last, block.toBlock] ∧
        Apart last block.toBlock) := by
  cases made with
  | @text audience texts nonempty =>
    cases block with
    | text content =>
      by_cases same : audience = content.audience
      · subst same
        left
        refine ⟨_, by simp [extendContent, toBlock], madeOf_concat_text _, ?_⟩
        intro before apart
        cases before <;> exact apart
      · right
        simp [extendContent, toBlock, same, Apart]
    | thinking part signature =>
      right
      simp [extendContent, toBlock, Apart]
  | @unsigned parts nonempty =>
    cases block with
    | text content =>
      right
      simp [extendContent, toBlock, Apart]
    | thinking part signature =>
      left
      refine ⟨_, by simp [extendContent, toBlock],
        madeOf_concat_unsigned part signature, ?_⟩
      intro before apart
      cases before <;> exact apart
  | @signed early parts lastSignature isSigned nonempty =>
    cases block with
    | text content =>
      right
      simp [extendContent, toBlock, Apart]
    | thinking part signature =>
      by_cases same : signature = lastSignature
      · subst same
        left
        refine ⟨_, by simp [extendContent, toBlock, isSigned],
          madeOf_concat_signed isSigned part, ?_⟩
        intro before apart
        cases before <;> exact apart
      · right
        simp [extendContent, toBlock, same, isSigned, Apart]

/-- The blocks that are made of the deltas read as the deltas. -/
theorem reading_of_madeOf {block : MessageContentBlock} (made : MadeOf block group) :
    block.reading = group.flatMap fun delta => delta.toBlock.reading := by
  cases made <;>
    simp [MessageContentBlock.reading, toBlock, flatMap_map, map_flatMap]

theorem reading_of_groups {groups : List (List DeltaBlock)}
    (made : Forall₂ MadeOf blocks groups) : blocks.flatMap MessageContentBlock.reading =
      groups.flatten.flatMap fun delta => delta.toBlock.reading := by
  induction made with
  | nil => rfl
  | cons here _ ih =>
    rw [flatMap_cons, flatten_cons, flatMap_append, ih, reading_of_madeOf here]

theorem coalesced_nil : Coalesced [] [] := by
  constructor
  · exact ⟨[], rfl, Forall₂.nil⟩
  · rfl
  · exact isChain_nil

theorem coalesced_singleton : Coalesced [block.toBlock] [block] := by
  constructor
  · exact ⟨[[block]], rfl, Forall₂.cons (madeOf_toBlock block) Forall₂.nil⟩
  · rfl
  · exact isChain_singleton _

theorem Coalesced.eq_nil (coalesced : Coalesced [] deltas) : deltas = [] := by
  obtain ⟨groups, rfl, made⟩ := coalesced.groups
  cases made
  rfl

/-- One more delta joins the last of the blocks or stands after them. -/
theorem Coalesced.extend (coalesced : Coalesced blocks deltas) (block : DeltaBlock) :
    Coalesced (extendContent blocks [block.toBlock]) (deltas ++ [block]) := by
  cases blocks using reverseRecOn with
  | nil =>
    rw [coalesced.eq_nil]
    exact coalesced_singleton block
  | append_singleton front last =>
    obtain ⟨groups, rfl, made⟩ := coalesced.groups
    obtain ⟨early, late, rfl, earlyMade, lateMade⟩ := exists_append_of_forall₂ made.flip
    obtain ⟨frontApart, -, cut⟩ := isChain_append.mp coalesced.apart
    cases lateMade with
    | @cons group _ _ _ lastMade none =>
      cases none
      rw [extendContent_concat]
      rcases extendContent_singleton lastMade block with
        ⟨joined, equal, joinedMade, keepsApart⟩ | ⟨equal, apart⟩
      · have sides : Forall₂ MadeOf (front ++ [joined]) (early ++ [group ++ [block]]) :=
          rel_append earlyMade.flip (Forall₂.cons joinedMade Forall₂.nil)
        rw [equal]
        constructor
        · exact ⟨_, by simp, sides⟩
        · rw [reading_of_groups sides]
          simp
        · apply isChain_append.mpr
          refine ⟨frontApart, isChain_singleton _, ?_⟩
          intro before isLast next isNext
          cases isNext
          exact keepsApart before (cut before isLast last rfl)
      · have sides : Forall₂ MadeOf (front ++ [last, block.toBlock])
            (early ++ [group, [block]]) :=
          rel_append earlyMade.flip
            (Forall₂.cons lastMade (Forall₂.cons (madeOf_toBlock block) Forall₂.nil))
        rw [equal]
        constructor
        · exact ⟨_, by simp, sides⟩
        · rw [reading_of_groups sides]
          simp
        · apply isChain_append.mpr
          refine ⟨frontApart, isChain_pair.mpr apart, ?_⟩
          intro before isLast next isNext
          cases isNext
          exact cut before isLast last rfl

/-- The last block as a delta, when another delta may join it. -/
def openDeltas (content : List MessageContentBlock) : List DeltaBlock :=
  (content.getLast?.bind MessageContentBlock.asDelta).toList

/-- The blocks that no delta changes. -/
def closedBlocks (content : List MessageContentBlock) : List MessageContentBlock :=
  if openDeltas content = [] then content else content.dropLast

theorem closedBlocks_append_open :
    closedBlocks content ++ (openDeltas content).map toBlock = content := by
  cases content using reverseRecOn with
  | nil => rfl
  | append_singleton front last =>
    cases last <;>
      simp [closedBlocks, openDeltas, MessageContentBlock.asDelta, toBlock]

theorem coalesced_open :
    Coalesced ((openDeltas content).map toBlock) (openDeltas content) := by
  unfold openDeltas
  cases content.getLast?.bind MessageContentBlock.asDelta with
  | none => exact coalesced_nil
  | some block => exact coalesced_singleton block

/-- Blocks that no delta may join stay in front of the delta. -/
theorem extendContent_closed {content : List MessageContentBlock}
    (isClosed : openDeltas content = []) (block : DeltaBlock) :
    extendContent content [block.toBlock] = content ++ [block.toBlock] := by
  cases content using reverseRecOn with
  | nil => rfl
  | append_singleton front last =>
    cases last <;> simp [openDeltas, MessageContentBlock.asDelta] at isClosed <;>
      simp [extendContent]

/-- After any deltas the closed blocks are as they were, and the blocks after them
are the open block and the deltas. -/
theorem exists_coalesced (deltas : List DeltaBlock) :
    ∃ blocks, deltas.foldl (fun content block => extendContent content [block.toBlock]) content =
        closedBlocks content ++ blocks ∧ Coalesced blocks (openDeltas content ++ deltas) := by
  induction deltas using reverseRecOn with
  | nil =>
    refine ⟨(openDeltas content).map toBlock, ?_, ?_⟩
    · exact (closedBlocks_append_open content).symm
    · rw [append_nil]
      exact coalesced_open content
  | append_singleton front block ih =>
    obtain ⟨blocks, equal, coalesced⟩ := ih
    refine ⟨extendContent blocks [block.toBlock], ?_, ?_⟩
    · rw [foldl_concat, equal]
      cases blocks using reverseRecOn with
      | nil =>
        have isClosed := (append_eq_nil_iff.mp coalesced.eq_nil).1
        have same : closedBlocks content = content := if_pos isClosed
        rw [same, append_nil, extendContent_closed isClosed]
        rfl
      | append_singleton early last =>
        rw [← append_assoc, extendContent_concat, extendContent_concat, append_assoc]
    · rw [← append_assoc]
      exact coalesced.extend block

section Pushing

variable (role : Role) (id : String)

/-- A delta has content. -/
theorem not_isUpdate (delta : Delta Inference) :
    ¬((delta.message role id).content = [] ∧ ((delta.message role id).inference.isSome ∨
      (delta.message role id).metadata.outputTokenLimitReached)) :=
  fun update => cons_ne_nil _ _ update.1

variable {last : StreamedMessage Inference}

variable (before : List (StreamedMessage Inference))

/-- A delta with the id of the last message changes that message only. -/
theorem push_concat (same : last.id = some id) (delta : Delta Inference) :
    push (before ++ [last]) (delta.message role id) =
      before ++ [{ last.withUpdate (delta.message role id) with
        content := extendContent last.content [delta.block.toBlock] }] := by
  have found : (some last).filter
      (fun last => last.id.isSome && last.id = (delta.message role id).id) = some last := by
    simp [same, Delta.message]
  simp only [push, getLast?_concat, found, dropLast_concat]
  rfl

/-- A delta with another id than the last message begins a message. -/
theorem push_new {conversation : List (StreamedMessage Inference)}
    (other : ∀ last ∈ conversation.getLast?, last.id ≠ some id) (delta : Delta Inference) :
    push conversation (delta.message role id) = conversation ++ [delta.message role id] := by
  have none : conversation.getLast?.filter
      (fun last => last.id.isSome && last.id = (delta.message role id).id) = none := by
    rw [Option.filter_eq_none_iff]
    intro last isLast found
    exact other last isLast (of_decide_eq_true (Bool.and_eq_true_iff.mp found).2)
  simp only [push, not_isUpdate role id delta, if_false, none]

/-- Deltas with the id of the last message extend its content one after another. -/
theorem pushDeltas_concat (same : last.id = some id) (deltas : List (Delta Inference)) :
    ∃ message, pushDeltas role id (before ++ [last]) deltas = before ++ [message] ∧
      message.id = some id ∧ message.role = last.role ∧
        message.content = (deltas.map Delta.block).foldl
          (fun content block => extendContent content [block.toBlock]) last.content := by
  induction deltas generalizing last with
  | nil => exact ⟨last, rfl, same, rfl, rfl⟩
  | cons delta rest ih =>
    rw [pushDeltas, foldl_cons, push_concat role id before same]
    exact ih same

/-- Deltas of one role and one id become one message, or continue the last one,
without loss. -/
theorem pushDeltas_coalesces (conversation : List (StreamedMessage Inference))
    (first : Delta Inference) (rest : List (Delta Inference)) :
    ((∀ last ∈ conversation.getLast?, last.id ≠ some id) →
      ∃ message, pushDeltas role id conversation (first :: rest) = conversation ++ [message] ∧
        message.id = some id ∧ message.role = role ∧
          Coalesced message.content ((first :: rest).map Delta.block)) ∧
    ∀ before last, conversation = before ++ [last] → last.id = some id →
      ∃ message blocks, pushDeltas role id conversation (first :: rest) = before ++ [message] ∧
        message.id = some id ∧ message.role = last.role ∧
          message.content = closedBlocks last.content ++ blocks ∧
            Coalesced blocks (openDeltas last.content ++ (first :: rest).map Delta.block) := by
  constructor
  · intro other
    have started : pushDeltas role id conversation (first :: rest) =
        pushDeltas role id (conversation ++ [first.message role id]) rest := by
      rw [pushDeltas, foldl_cons, push_new role id other]
      rfl
    obtain ⟨message, pushed, sameId, sameRole, content⟩ := pushDeltas_concat role id conversation
      (show (first.message role id).id = some id from rfl) rest
    refine ⟨message, started.trans pushed, sameId, sameRole, ?_⟩
    obtain ⟨blocks, equal, coalesced⟩ := exists_coalesced [] ((first :: rest).map Delta.block)
    have all : message.content = blocks := by
      rw [content]
      exact equal
    rw [all]
    exact coalesced
  · rintro before last rfl same
    obtain ⟨message, pushed, sameId, sameRole, content⟩ :=
      pushDeltas_concat role id before same (first :: rest)
    obtain ⟨blocks, equal, coalesced⟩ :=
      exists_coalesced last.content ((first :: rest).map Delta.block)
    exact ⟨message, blocks, pushed, sameId, sameRole, content.trans equal, coalesced⟩

end Pushing

/-- The signature closes a block, and what comes after it begins the next one. -/
example :
    (pushDeltas .assistant "turn-1" ([] : List (StreamedMessage Unit))
      ([.thinking "a" "", .thinking "b" "sig1", .thinking "c" ""].map fun block =>
        ⟨block, 0, {}, none⟩)).map (·.content) =
      [[.thinking "ab" "sig1", .thinking "c" ""]] := by decide +kernel

end Obelus.Conversation
