import Mathlib.Data.List.Flatten
import Obelus.Agent.Operations

/-!
# Thinking before tool calls

The thinking of a streamed reply is moved to the chunk with its tool calls.
-/

namespace Obelus.Agent

open List
open Obelus.Conversation (Role)

variable {ι : Type}

namespace MessageContent

/-- `is_thinking`. -/
def isThinking : MessageContent ι → Bool
  | .thinking _ _ => true
  | .redactedThinking _ => true
  | _ => false

def isToolRequest : MessageContent ι → Bool
  | .toolRequest _ => true
  | _ => false

end MessageContent

namespace Message

def hasToolRequest (message : Message ι) : Bool :=
  message.content.any MessageContent.isToolRequest

/-- The thinking blocks of a message. -/
def thoughts (message : Message ι) : List (MessageContent ι) :=
  message.content.filter MessageContent.isThinking

/-- The message without its thinking blocks. -/
def withoutThoughts (message : Message ι) : Message ι :=
  { message with content := message.content.filter fun block => !block.isThinking }

end Message

/-- The loop passes over messages of another role and over messages with a tool request. -/
def keepsThoughts (role : Role) (message : Message ι) : Bool :=
  message.role ≠ role || message.hasToolRequest

/-- The thinking blocks that are taken from the messages of a reply. -/
def priorThinking (role : Role) (accumulator : List (Message ι)) : List (MessageContent ι) :=
  accumulator.flatMap fun message => if keepsThoughts role message then [] else message.thoughts

/-- The loop on one message. -/
def stripMessage (role : Role) (message : Message ι) : Message ι :=
  if keepsThoughts role message then message else message.withoutThoughts

/-- The messages after the loop, without the empty ones. -/
def strippedAccumulator (role : Role) (accumulator : List (Message ι)) : List (Message ι) :=
  (accumulator.map (stripMessage role)).filter fun message => !message.content.isEmpty

/-- `splice` at the first tool request. -/
def spliceThinking (prior content : List (MessageContent ι)) : List (MessageContent ι) :=
  match content.findIdx? MessageContent.isToolRequest with
  | some toolRequest => content.take toolRequest ++ prior ++ content.drop toolRequest
  | none => content

/-- `normalize_tool_call_thinking`: the messages of the reply so far, and the chunk. -/
def normalizeToolCallThinking (accumulator : List (Message ι)) (chunk : Message ι) :
    List (Message ι) × Message ι :=
  if !chunk.hasToolRequest then (accumulator, chunk)
  else
    let hasDirectThinking := chunk.content.any MessageContent.isThinking
    let prior := priorThinking chunk.role accumulator
    (strippedAccumulator chunk.role accumulator,
      if !hasDirectThinking && !prior.isEmpty then
        { chunk with content := spliceThinking prior chunk.content }
      else chunk)

/-- The thinking blocks of a reply and of the next chunk, in order. -/
def allThoughts (reply : List (Message ι) × Message ι) : List (MessageContent ι) :=
  (reply.1 ++ [reply.2]).flatMap Message.thoughts

/-- The messages without their thinking blocks, and without those that have no other. -/
def otherBlocks (messages : List (Message ι)) : List (Message ι) :=
  (messages.map Message.withoutThoughts).filter fun message => !message.content.isEmpty

/-- What the move of the thinking keeps. -/
structure MovesThinking (accumulator : List (Message ι)) (chunk : Message ι)
    (moved : List (Message ι) × Message ι) : Prop where
  thoughts : allThoughts moved = allThoughts (accumulator, chunk)
  others : otherBlocks moved.1 = otherBlocks accumulator ∧
    moved.2.withoutThoughts = chunk.withoutThoughts
  noneLeft : chunk.hasToolRequest → ∀ message ∈ moved.1, message.role = chunk.role →
    ¬message.hasToolRequest → message.thoughts = []

/-- No thinking is dropped or moved ahead of thinking that is kept. -/
def KeepsOrder (accumulator : List (Message ι)) (chunk : Message ι) : Prop :=
  chunk.hasToolRequest → priorThinking chunk.role accumulator ≠ [] →
    chunk.thoughts = [] ∧
      (accumulator.filter (keepsThoughts chunk.role)).flatMap Message.thoughts ++
        priorThinking chunk.role accumulator = accumulator.flatMap Message.thoughts

@[simp]
theorem Message.thoughts_withoutThoughts (message : Message ι) :
    message.withoutThoughts.thoughts = [] := by
  simp [Message.thoughts, Message.withoutThoughts, filter_filter]

@[simp]
theorem Message.withoutThoughts_withoutThoughts (message : Message ι) :
    message.withoutThoughts.withoutThoughts = message.withoutThoughts := by
  simp [Message.withoutThoughts, filter_filter]

variable {message chunk : Message ι} {prior : List (MessageContent ι)}

theorem Message.thoughts_eq_nil_iff :
    message.thoughts = [] ↔ message.content.any MessageContent.isThinking = false := by
  simp [Message.thoughts]

variable (role : Role) (accumulator : List (Message ι))

theorem strippedAccumulator_cons (message : Message ι) (rest : List (Message ι)) :
    strippedAccumulator role (message :: rest) =
      if (stripMessage role message).content = [] then strippedAccumulator role rest
      else stripMessage role message :: strippedAccumulator role rest := by
  rw [strippedAccumulator, map_cons, filter_cons, ← strippedAccumulator]
  cases (stripMessage role message).content <;> simp

theorem withoutThoughts_stripMessage (message : Message ι) :
    (stripMessage role message).withoutThoughts = message.withoutThoughts := by
  rw [stripMessage]
  split <;> simp

theorem thoughts_stripMessage (message : Message ι) : (stripMessage role message).thoughts =
      if keepsThoughts role message then message.thoughts else [] := by
  rw [stripMessage]
  split <;> simp

theorem thoughts_strippedAccumulator :
    (strippedAccumulator role accumulator).flatMap Message.thoughts =
      (accumulator.filter (keepsThoughts role)).flatMap Message.thoughts := by
  induction accumulator with
  | nil => rfl
  | cons message rest ih =>
    have here := thoughts_stripMessage role message
    rw [strippedAccumulator_cons, filter_cons]
    split
    · next noContent =>
      rw [Message.thoughts, noContent, filter_nil] at here
      rw [ih]
      split
      · next keeps =>
        rw [if_pos keeps] at here
        rw [flatMap_cons, ← here, nil_append]
      · rfl
    · rw [flatMap_cons, here, ih]
      split <;> rfl

theorem otherBlocks_cons (message : Message ι) (rest : List (Message ι)) :
    otherBlocks (message :: rest) =
      if message.withoutThoughts.content = [] then otherBlocks rest
      else message.withoutThoughts :: otherBlocks rest := by
  rw [otherBlocks, map_cons, filter_cons, ← otherBlocks]
  cases content : message.withoutThoughts.content <;> simp

theorem otherBlocks_strippedAccumulator :
    otherBlocks (strippedAccumulator role accumulator) = otherBlocks accumulator := by
  induction accumulator with
  | nil => rfl
  | cons message rest ih =>
    have same := withoutThoughts_stripMessage role message
    rw [strippedAccumulator_cons, otherBlocks_cons]
    split
    · next noContent =>
      have emptied : message.withoutThoughts.content = [] := by
        rw [← same, Message.withoutThoughts, noContent, filter_nil]
      rw [if_pos emptied, ih]
    · rw [otherBlocks_cons, same, ih]

theorem strippedAccumulator_noneLeft (member : message ∈ strippedAccumulator role accumulator)
    (sameRole : message.role = role) (noRequest : ¬message.hasToolRequest) :
    message.thoughts = [] := by
  obtain ⟨original, -, rfl⟩ := mem_map.mp (mem_of_mem_filter member)
  rw [thoughts_stripMessage]
  rw [stripMessage] at sameRole noRequest
  split
  · next keeps =>
    rw [if_pos keeps] at sameRole noRequest
    simp [keepsThoughts, sameRole, noRequest] at keeps
  · rfl

theorem isThinking_of_mem_priorThinking {block : MessageContent ι}
    (member : block ∈ priorThinking role accumulator) : block.isThinking := by
  obtain ⟨message, -, isPrior⟩ := mem_flatMap.mp member
  split at isPrior
  · cases isPrior
  · exact of_mem_filter isPrior

theorem length_priorThinking :
    ((accumulator.filter (keepsThoughts role)).flatMap Message.thoughts).length +
      (priorThinking role accumulator).length = (accumulator.flatMap Message.thoughts).length := by
  induction accumulator with
  | nil => rfl
  | cons message rest ih =>
    rw [filter_cons, priorThinking, flatMap_cons, flatMap_cons, ← priorThinking,
      length_append, length_append]
    split
    · rw [flatMap_cons, length_append, length_nil]
      omega
    · omega

theorem flatMap_thoughts_filter_eq (noPrior : priorThinking role accumulator = []) :
    (accumulator.filter (keepsThoughts role)).flatMap Message.thoughts =
      accumulator.flatMap Message.thoughts := by
  induction accumulator with
  | nil => rfl
  | cons message rest ih =>
    rw [priorThinking, flatMap_cons, append_eq_nil_iff] at noPrior
    rw [filter_cons, flatMap_cons, ← ih noPrior.2]
    cases keeps : keepsThoughts role message with
    | true => simp
    | false =>
      have none := noPrior.1
      rw [keeps, if_neg Bool.false_ne_true] at none
      simp [none]

/-- Before the first tool request, and from it on. -/
theorem exists_spliceThinking {content : List (MessageContent ι)}
    (hasRequest : content.any MessageContent.isToolRequest) (prior : List (MessageContent ι)) :
    ∃ before after, content = before ++ after ∧
      spliceThinking prior content = before ++ prior ++ after := by
  cases found : content.findIdx? MessageContent.isToolRequest with
  | none =>
    rw [findIdx?_eq_none_iff] at found
    obtain ⟨block, member, isRequest⟩ := any_eq_true.mp hasRequest
    rw [found block member] at isRequest
    cases isRequest
  | some place =>
    refine ⟨content.take place, content.drop place, (take_append_drop _ _).symm, ?_⟩
    rw [spliceThinking, found]

/-- Where there is no other thinking in the chunk, the moved thinking is all of it. -/
theorem thoughts_spliceThinking (hasRequest : chunk.hasToolRequest)
    (noThoughts : chunk.thoughts = []) (areThoughts : ∀ block ∈ prior, block.isThinking) :
    ({ chunk with content := spliceThinking prior chunk.content } : Message ι).thoughts =
      prior := by
  obtain ⟨before, after, isContent, isSpliced⟩ := exists_spliceThinking hasRequest prior
  rw [Message.thoughts, isContent, filter_append, append_eq_nil_iff] at noThoughts
  simp only [Message.thoughts]
  rw [isSpliced, filter_append, filter_append, noThoughts.1, noThoughts.2,
    nil_append, append_nil, filter_eq_self.mpr areThoughts]

theorem withoutThoughts_spliceThinking (hasRequest : chunk.hasToolRequest)
    (areThoughts : ∀ block ∈ prior, block.isThinking) :
    ({ chunk with content := spliceThinking prior chunk.content } : Message ι).withoutThoughts =
      chunk.withoutThoughts := by
  obtain ⟨before, after, isContent, isSpliced⟩ := exists_spliceThinking hasRequest prior
  have noneLeft : prior.filter (fun block => !block.isThinking) = [] := by
    simpa using areThoughts
  simp only [Message.withoutThoughts, isSpliced]
  rw [isContent, filter_append, filter_append, filter_append, noneLeft, append_nil]

theorem normalizeToolCallThinking_of_hasToolRequest (hasRequest : chunk.hasToolRequest) :
    normalizeToolCallThinking accumulator chunk =
      (strippedAccumulator chunk.role accumulator,
        if !chunk.content.any MessageContent.isThinking &&
            !(priorThinking chunk.role accumulator).isEmpty then
          { chunk with
            content := spliceThinking (priorThinking chunk.role accumulator) chunk.content }
        else chunk) := by
  rw [normalizeToolCallThinking, hasRequest, Bool.not_true, if_neg Bool.false_ne_true]

theorem normalizeToolCallThinking_others (chunk : Message ι) :
    otherBlocks (normalizeToolCallThinking accumulator chunk).1 = otherBlocks accumulator ∧
      (normalizeToolCallThinking accumulator chunk).2.withoutThoughts = chunk.withoutThoughts := by
  cases hasRequest : chunk.hasToolRequest with
  | false =>
    rw [normalizeToolCallThinking, hasRequest]
    exact ⟨rfl, rfl⟩
  | true =>
    rw [normalizeToolCallThinking_of_hasToolRequest _ hasRequest]
    refine ⟨otherBlocks_strippedAccumulator _ _, ?_⟩
    split
    · exact withoutThoughts_spliceThinking hasRequest fun block member =>
        isThinking_of_mem_priorThinking _ _ member
    · rfl

theorem normalizeToolCallThinking_noneLeft (chunk : Message ι) (hasRequest : chunk.hasToolRequest)
    (message : Message ι) (member : message ∈ (normalizeToolCallThinking accumulator chunk).1)
    (sameRole : message.role = chunk.role) (noRequest : ¬message.hasToolRequest) :
    message.thoughts = [] := by
  rw [normalizeToolCallThinking_of_hasToolRequest _ hasRequest] at member
  exact strippedAccumulator_noneLeft _ _ member sameRole noRequest

/-- The thinking after the move, of a chunk with a tool request. -/
theorem allThoughts_normalizeToolCallThinking (hasRequest : chunk.hasToolRequest) :
    allThoughts (normalizeToolCallThinking accumulator chunk) =
      (accumulator.filter (keepsThoughts chunk.role)).flatMap Message.thoughts ++
        if chunk.thoughts = [] then priorThinking chunk.role accumulator else chunk.thoughts := by
  have areThoughts : ∀ block ∈ priorThinking chunk.role accumulator, block.isThinking :=
    fun _ member => isThinking_of_mem_priorThinking _ _ member
  rw [normalizeToolCallThinking_of_hasToolRequest _ hasRequest, allThoughts]
  rw [flatMap_append, thoughts_strippedAccumulator, flatMap_singleton]
  congr 1
  by_cases noThoughts : chunk.thoughts = []
  · rw [if_pos noThoughts, Message.thoughts_eq_nil_iff.mp noThoughts]
    cases prior : priorThinking chunk.role accumulator with
    | nil => exact noThoughts
    | cons block rest =>
      rw [prior] at areThoughts
      exact thoughts_spliceThinking hasRequest noThoughts areThoughts
  · have direct : chunk.content.any MessageContent.isThinking = true := by
      rw [Message.thoughts_eq_nil_iff, Bool.not_eq_false] at noThoughts
      exact noThoughts
    rw [if_neg noThoughts, direct]
    rfl

theorem allThoughts_eq_iff (chunk : Message ι) :
    allThoughts (normalizeToolCallThinking accumulator chunk) = allThoughts (accumulator, chunk) ↔
      KeepsOrder accumulator chunk := by
  cases hasRequest : chunk.hasToolRequest with
  | false =>
    rw [normalizeToolCallThinking, hasRequest]
    refine iff_of_true rfl fun request => ?_
    rw [hasRequest] at request
    cases request
  | true =>
    have before : allThoughts (accumulator, chunk) =
        accumulator.flatMap Message.thoughts ++ chunk.thoughts := by
      rw [allThoughts, flatMap_append, flatMap_singleton]
    have lengths := length_priorThinking chunk.role accumulator
    rw [allThoughts_normalizeToolCallThinking _ hasRequest, before, KeepsOrder]
    by_cases noPrior : priorThinking chunk.role accumulator = []
    · rw [flatMap_thoughts_filter_eq _ _ noPrior, noPrior]
      simp +contextual
    · by_cases noThoughts : chunk.thoughts = []
      · simp [noThoughts, noPrior, hasRequest]
      · rw [if_neg noThoughts, append_left_inj]
        refine iff_of_false (fun same => ?_) fun keeps => noThoughts (keeps hasRequest noPrior).1
        have positive := length_pos_iff.mpr noPrior
        rw [same] at lengths
        omega

/-- The thinking is moved as it is where none is dropped or moved ahead of other thinking. -/
theorem movesThinking_iff (chunk : Message ι) :
    MovesThinking accumulator chunk (normalizeToolCallThinking accumulator chunk) ↔
      KeepsOrder accumulator chunk := by
  rw [← allThoughts_eq_iff]
  constructor
  · exact fun moves => moves.thoughts
  · intro same
    exact
      { thoughts := same
        others := normalizeToolCallThinking_others accumulator chunk
        noneLeft := normalizeToolCallThinking_noneLeft accumulator chunk }

/-- A chunk with thinking of its own and a tool request. -/
theorem not_movesThinking_directThinking : let earlier : Message Unit :=
      { role := .assistant, created := 0, content := [.thinking "first" ""] }
    let chunk : Message Unit :=
      { role := .assistant
        created := 0
        content := [.thinking "second" "", .toolRequest { id := "1", toolCall := .error "" }] }
    ¬MovesThinking [earlier] chunk (normalizeToolCallThinking [earlier] chunk) := by
  intro earlier chunk moves
  have lost : allThoughts (normalizeToolCallThinking [earlier] chunk) = [.thinking "second" ""] :=
    rfl
  have both : allThoughts ([earlier], chunk) = [.thinking "first" "", .thinking "second" ""] := rfl
  have same := congrArg length moves.thoughts
  cases same

end Obelus.Agent
