import Obelus.Data.Parts
import Obelus.Formats.OpenAi.Core

/-!
# Merging the parts of a turn

What `mergeSplitToolCallMessages` keeps.  A property of the calls of a message
and the rest of its turn survives when it holds of a turn that continues with
the calls and the rest of another; whatever the merged messages show besides
calls stays in its order.
-/

namespace Obelus.Formats.OpenAi

open List
open Obelus.Data (turn EveryTurn turn_append turn_cons_of_opens turn_cons_of_not_opens
  everyTurn_nil everyTurn_cons_iff everyTurn_append_iff)

namespace SpecMessage

def isAssistant (message : SpecMessage) : Bool :=
  message.role = .assistant

def isTool (message : SpecMessage) : Bool :=
  message.role = .tool

variable {message : SpecMessage} {base : String}

theorem isAssistant_of_isAssistantToolCall (isCall : message.isAssistantToolCall) :
    message.isAssistant := by
  simp only [isAssistantToolCall, Bool.and_eq_true] at isCall
  exact isCall.1

theorem isSplit_iff : message.isSplit base ↔ message.isAssistantToolCall ∧ message.hasNoContent ∧
      message.reasoningContent = some base := by
  simp [isSplit, and_assoc]

theorem isAssistant_of_isSplit (isPart : message.isSplit base) : message.isAssistant :=
  isAssistant_of_isAssistantToolCall (isSplit_iff.mp isPart).1

theorem not_isAssistant_of_isImageOnly (imageOnly : message.isImageOnlyUserMessage) :
    ¬message.isAssistant := by
  simp only [isImageOnlyUserMessage, Bool.and_eq_true, decide_eq_true_eq] at imageOnly
  simp [isAssistant, imageOnly.1]

theorem not_isAssistant_of_tool (isResult : message.role = .tool) : ¬message.isAssistant := by
  simp [isAssistant, isResult]

theorem exists_items_of_isImageOnly (imageOnly : message.isImageOnlyUserMessage) :
    message.role = .user ∧ ∃ items, message.content = some (.items items) ∧ items ≠ [] ∧
      ∀ item ∈ items, ∃ url, item = .imageUrl url := by
  simp only [isImageOnlyUserMessage, Bool.and_eq_true, decide_eq_true_eq] at imageOnly
  obtain ⟨isUser, imageOnly⟩ := imageOnly
  refine ⟨isUser, ?_⟩
  split at imageOnly
  · next items hasItems =>
    simp only [Bool.and_eq_true, Bool.not_eq_true', isEmpty_eq_false_iff, all_eq_true] at imageOnly
    refine ⟨items, hasItems, imageOnly.1, fun item member => ?_⟩
    have isUrl := imageOnly.2 item member
    cases item with
    | imageUrl url => exact ⟨url, rfl⟩
    | _ => simp at isUrl
  · simp at imageOnly

end SpecMessage

/-- The messages in front of the next part: a result and its images. -/
theorem collected_not_isAssistant {result : SpecMessage} (rest : List SpecMessage)
    (isResult : result.role = .tool) :
    ∀ message ∈ result :: rest.takeWhile SpecMessage.isImageOnlyUserMessage,
      ¬message.isAssistant := by
  rw [forall_mem_cons]
  refine ⟨SpecMessage.not_isAssistant_of_tool isResult, ?_⟩
  intro message member
  exact SpecMessage.not_isAssistant_of_isImageOnly (mem_takeWhile_imp member)

/-- A list whose images are followed by a part of the turn. -/
theorem eq_images_append {rest after : List SpecMessage} {next : SpecMessage}
    (found : rest.dropWhile SpecMessage.isImageOnlyUserMessage = next :: after) :
    rest = rest.takeWhile SpecMessage.isImageOnlyUserMessage ++ next :: after := by
  rw [← found, takeWhile_append_dropWhile]

section Turns

variable {holds : List ToolCall → List SpecMessage → Prop}

/-- The calls of an assistant message and the rest of its turn. -/
def CallTurns (holds : List ToolCall → List SpecMessage → Prop) :
    List SpecMessage → Prop :=
  EveryTurn SpecMessage.isAssistant fun message later => holds message.toolCalls later

/-- A turn may continue behind a result and its images. -/
def Continues (holds : List ToolCall → List SpecMessage → Prop) : Prop :=
  ∀ calls more result images later, SpecMessage.role result = .tool →
    (∀ message ∈ images, SpecMessage.isImageOnlyUserMessage message) →
    holds calls (result :: images) → holds more later →
    holds (calls ++ more) (result :: images ++ later)

theorem scanSplit_turn (continues : Continues holds) (base : String)
    (messages : List SpecMessage) (calls : List ToolCall)
    (first : holds calls (turn SpecMessage.isAssistant messages))
    (others : CallTurns holds messages) : holds (calls ++ (scanSplit base messages).extraToolCalls)
      ((scanSplit base messages).collected ++
        turn SpecMessage.isAssistant (scanSplit base messages).after) := by
  fun_induction scanSplit base messages generalizing calls with
  | case1 => simpa using first
  | case2 result rest isResult found => simpa using first
  | case3 result rest isResult next after found isPart later ih =>
    have follow := collected_not_isAssistant rest isResult
    have opensNext := SpecMessage.isAssistant_of_isSplit isPart
    have split : result :: rest =
        (result :: rest.takeWhile SpecMessage.isImageOnlyUserMessage) ++ next :: after := by
      rw [cons_append, ← eq_images_append found]
    rw [split, turn_append follow, turn_cons_of_opens opensNext, append_nil] at first
    rw [split, CallTurns, everyTurn_append_iff follow, everyTurn_cons_iff] at others
    have rest := ih next.toolCalls (others.1 opensNext) others.2
    have joined := continues calls _ result _ _ isResult
      (fun message member => mem_takeWhile_imp member) first rest
    simpa using joined
  | case4 result rest isResult next after found isPart => simpa using first
  | case5 result rest isResult => simpa using first

theorem not_isAssistant_of_mem_collected (base : String) (messages : List SpecMessage) :
    ∀ message ∈ (scanSplit base messages).collected, ¬message.isAssistant := by
  fun_induction scanSplit base messages with
  | case3 result rest isResult next after found isPart later ih =>
    rw [forall_mem_append]
    exact ⟨collected_not_isAssistant _ isResult, ih⟩
  | _ => simp

theorem mem_of_mem_collected (base : String) (messages : List SpecMessage) :
    ∀ message ∈ (scanSplit base messages).collected, message ∈ messages := by
  fun_induction scanSplit base messages with
  | case3 result rest isResult next after found isPart later ih =>
    intro message member
    simp only [cons_append, mem_cons, mem_append] at member ⊢
    have afterInRest : next :: after <:+ rest := found ▸ dropWhile_suffix _
    rcases member with isResult | image | collected
    · exact Or.inl isResult
    · exact Or.inr ((List.takeWhile_prefix _).mem image)
    · exact Or.inr (afterInRest.mem (mem_cons_of_mem next (ih message collected)))
  | _ => simp

variable {messages : List SpecMessage}

/-- Merging changes assistant messages only. -/
theorem mem_of_mem_mergeSplit {message : SpecMessage}
    (member : message ∈ mergeSplitToolCallMessages messages) :
    message.isAssistant ∨ message ∈ messages := by
  fun_induction mergeSplitToolCallMessages messages with
  | case1 => simp at member
  | case3 first rest base hasBase isCall split some ih =>
    rcases mem_cons.mp member with isFirst | member
    · have opener := SpecMessage.isAssistant_of_isAssistantToolCall isCall
      rw [isFirst]
      exact Or.inl opener
    · rcases mem_append.mp member with collected | after
      · have inRest := mem_of_mem_collected base rest message collected
        exact Or.inr (mem_cons_of_mem first inRest)
      · refine (ih after).imp_right fun inAfter => mem_cons_of_mem first ?_
        exact (scanSplit_after_suffix base rest).mem inAfter
  | _ =>
    rcases mem_cons.mp member with isFirst | inRest
    · exact Or.inr (isFirst ▸ mem_cons_self)
    · grind

theorem turn_mergeSplit (messages : List SpecMessage) :
    turn SpecMessage.isAssistant (mergeSplitToolCallMessages messages) =
      turn SpecMessage.isAssistant messages := by
  fun_induction mergeSplitToolCallMessages messages with
  | case1 => rfl
  | case2 message rest base hasBase isCall split none ih =>
    have opener := SpecMessage.isAssistant_of_isAssistantToolCall isCall
    rw [turn_cons_of_opens opener, turn_cons_of_opens opener]
  | case3 message rest base hasBase isCall split some ih =>
    have opener := SpecMessage.isAssistant_of_isAssistantToolCall isCall
    rw [turn_cons_of_opens opener]
    exact turn_cons_of_opens (by exact opener) _
  | case4 message rest base hasBase isCall ih =>
    by_cases opener : message.isAssistant
    · rw [turn_cons_of_opens opener, turn_cons_of_opens opener]
    · rw [turn_cons_of_not_opens opener, turn_cons_of_not_opens opener, ih]
  | case5 message rest hasBase ih =>
    by_cases opener : message.isAssistant
    · rw [turn_cons_of_opens opener, turn_cons_of_opens opener]
    · rw [turn_cons_of_not_opens opener, turn_cons_of_not_opens opener, ih]

/-- Merging the parts of a turn keeps what may continue from part to part. -/
theorem CallTurns.mergeSplit (continues : Continues holds) (every : CallTurns holds messages) :
    CallTurns holds (mergeSplitToolCallMessages messages) := by
  have keep : ∀ message rest, CallTurns holds (message :: rest) →
      (CallTurns holds rest → CallTurns holds (mergeSplitToolCallMessages rest)) →
      CallTurns holds (message :: mergeSplitToolCallMessages rest) := by
    intro message rest every ih
    rw [CallTurns, everyTurn_cons_iff] at every ⊢
    rw [turn_mergeSplit]
    exact ⟨every.1, ih every.2⟩
  fun_induction mergeSplitToolCallMessages messages with
  | case1 => exact everyTurn_nil
  | case2 message rest base hasBase isCall split none ih => exact keep message rest every ih
  | case3 message rest base hasBase isCall split some ih =>
    have opener := SpecMessage.isAssistant_of_isAssistantToolCall isCall
    rw [CallTurns, everyTurn_cons_iff] at every
    have follow := not_isAssistant_of_mem_collected base rest
    rw [CallTurns, everyTurn_cons_iff]
    constructor
    · intro _
      rw [turn_append follow, turn_mergeSplit]
      exact scanSplit_turn continues base rest message.toolCalls (every.1 opener) every.2
    · rw [everyTurn_append_iff follow]
      exact ih (every.2.of_suffix (scanSplit_after_suffix base rest))
  | case4 message rest base hasBase isCall ih => exact keep message rest every ih
  | case5 message rest hasBase ih => exact keep message rest every ih

end Turns

section Shown

variable {β : Type} {shown : SpecMessage → Option β}

theorem filterMap_scanSplit
    (dropped : ∀ message : SpecMessage, message.isAssistant → message.hasNoContent →
      shown message = none) (base : String) (messages : List SpecMessage) :
    ((scanSplit base messages).collected ++ (scanSplit base messages).after).filterMap shown =
      messages.filterMap shown := by
  fun_induction scanSplit base messages with
  | case3 result rest isResult next after found isPart later ih =>
    have part := SpecMessage.isSplit_iff.mp isPart
    have nothing := dropped next (SpecMessage.isAssistant_of_isSplit isPart) part.2.1
    have split : result :: rest =
        (result :: rest.takeWhile SpecMessage.isImageOnlyUserMessage) ++ next :: after := by
      rw [cons_append, ← eq_images_append found]
    have original : (result :: rest).filterMap shown =
        (result :: rest.takeWhile SpecMessage.isImageOnlyUserMessage).filterMap shown ++
          (later.collected ++ later.after).filterMap shown := by
      rw [split, filterMap_append, filterMap_cons_none nothing, ih]
    rw [original]
    simp only [filterMap_append, append_assoc]
  | _ => simp

/-- What a message shows besides its calls is kept in its order, where parts
without content show nothing. -/
theorem filterMap_mergeSplit
    (sameCalls : ∀ (message : SpecMessage) toolCalls,
      shown { message with toolCalls } = shown message)
    (dropped : ∀ message : SpecMessage, message.isAssistant → message.hasNoContent →
      shown message = none) (messages : List SpecMessage) :
    (mergeSplitToolCallMessages messages).filterMap shown = messages.filterMap shown := by
  fun_induction mergeSplitToolCallMessages messages with
  | case1 => rfl
  | case2 message rest base hasBase isCall split none ih => simp only [filterMap_cons, ih]
  | case3 message rest base hasBase isCall split some ih =>
    have scanned := filterMap_scanSplit dropped base rest
    rw [filterMap_append] at scanned
    simp only [filterMap_cons, sameCalls, filterMap_append, ih]
    rw [scanned]
  | case4 message rest base hasBase isCall ih => simp only [filterMap_cons, ih]
  | case5 message rest hasBase ih => simp only [filterMap_cons, ih]

end Shown

variable {messages : List SpecMessage}

theorem scanSplit_toolCalls (base : String)
    (callers : ∀ message ∈ messages, ¬message.isAssistant → message.toolCalls = []) :
    (scanSplit base messages).extraToolCalls ++
        (scanSplit base messages).after.flatMap SpecMessage.toolCalls =
      messages.flatMap SpecMessage.toolCalls := by
  fun_induction scanSplit base messages with
  | case3 result rest isResult next after found isPart later ih =>
    have split : result :: rest =
        (result :: rest.takeWhile SpecMessage.isImageOnlyUserMessage) ++ next :: after := by
      rw [cons_append, ← eq_images_append found]
    rw [split] at callers ⊢
    have silent : (result :: rest.takeWhile SpecMessage.isImageOnlyUserMessage).flatMap
        SpecMessage.toolCalls = [] := by
      rw [flatMap_eq_nil_iff]
      intro message member
      exact callers message (mem_append_left _ member)
        (collected_not_isAssistant _ isResult message member)
    have inAfter := ih fun message member => callers message (by simp [member])
    rw [flatMap_append, silent, flatMap_cons, ← inAfter]
    simp [later]
  | _ => simp

/-- The calls are kept in their order, where only assistant messages have calls. -/
theorem toolCalls_mergeSplit
    (callers : ∀ message ∈ messages, ¬message.isAssistant → message.toolCalls = []) :
    (mergeSplitToolCallMessages messages).flatMap SpecMessage.toolCalls =
      messages.flatMap SpecMessage.toolCalls := by
  fun_induction mergeSplitToolCallMessages messages with
  | case1 => rfl
  | case2 message rest base hasBase isCall split none ih =>
    rw [flatMap_cons, flatMap_cons, ih (forall_mem_cons.mp callers).2]
  | case3 message rest base hasBase isCall split some ih =>
    have callersRest := (forall_mem_cons.mp callers).2
    have inRest := scanSplit_toolCalls base callersRest
    have silent : (scanSplit base rest).collected.flatMap SpecMessage.toolCalls = [] := by
      rw [flatMap_eq_nil_iff]
      intro message member
      exact callersRest message (mem_of_mem_collected base rest message member)
        (not_isAssistant_of_mem_collected base rest message member)
    have inAfter := ih fun message member =>
      callersRest message ((scanSplit_after_suffix base rest).mem member)
    rw [flatMap_cons, flatMap_append, inAfter, silent, flatMap_cons, ← inRest]
    simp [split]
  | case4 message rest base hasBase isCall ih =>
    rw [flatMap_cons, flatMap_cons, ih (forall_mem_cons.mp callers).2]
  | case5 message rest hasBase ih =>
    rw [flatMap_cons, flatMap_cons, ih (forall_mem_cons.mp callers).2]

end Obelus.Formats.OpenAi
