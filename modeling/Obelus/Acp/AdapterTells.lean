import Obelus.Acp.Adapter

/-!
# What the notification adapter tells

A step of the adapter that changes the messages tells the new ones, and no step takes
the id of a message away.
-/

namespace Obelus.Acp

open List
open Obelus.Conversation (Role)

variable {ι : Type}

/-- Every message stays at its place, with its id if it has one. -/
def KeepsIds (before after : List (Message ι)) : Prop :=
  ∀ (place : Nat) (message : Message ι), before[place]? = some message →
    ∃ kept, after[place]? = some kept ∧
      ((present message.id).isSome → kept.id = message.id)

namespace KeepsIds

theorem refl (messages : List (Message ι)) : KeepsIds messages messages :=
  fun _ message here => ⟨message, here, fun _ => rfl⟩

variable {before after messages : List (Message ι)} {change : Message ι → Message ι} {place : Nat}

theorem trans {middle : List (Message ι)} (first : KeepsIds before middle)
    (second : KeepsIds middle after) : KeepsIds before after := by
  intro place message here
  obtain ⟨kept, there, same⟩ := first place message here
  obtain ⟨last, found, sameLast⟩ := second place kept there
  refine ⟨last, found, fun isPresent => ?_⟩
  have keptId := same isPresent
  rw [sameLast (keptId ▸ isPresent), keptId]

theorem append (before more : List (Message ι)) : KeepsIds before (before ++ more) := by
  intro place message here
  refine ⟨message, ?_, fun _ => rfl⟩
  rw [getElem?_append_left (List.getElem?_eq_some_iff.mp here).1]
  exact here

theorem modify (keeps : ∀ message, messages[place]? = some message → (present message.id).isSome →
      (change message).id = message.id) : KeepsIds messages (messages.modify place change) := by
  intro other message here
  rw [getElem?_modify, here]
  by_cases same : place = other
  · exact ⟨change message, by simp [same], keeps message (same ▸ here)⟩
  · exact ⟨message, by simp [same], fun _ => rfl⟩

theorem set {message changed : Message ι} (here : messages[place]? = some message)
    (same : changed.id = message.id) : KeepsIds messages (messages.set place changed) := by
  intro other found there
  by_cases samePlace : place = other
  · subst samePlace
    cases Option.some.inj (here.symm.trans there)
    have inList := (List.getElem?_eq_some_iff.mp here).1
    exact ⟨changed, by simp [inList], fun _ => same⟩
  · exact ⟨found, by rw [getElem?_set_ne samePlace, there], fun _ => rfl⟩

theorem map (keeps : ∀ message, (change message).id = message.id) (messages : List (Message ι)) :
    KeepsIds messages (messages.map change) := by
  intro place message here
  exact ⟨change message, by simp [here], fun _ => keeps message⟩

/-- A message with an id is still there. -/
theorem exists_id (keeps : KeepsIds before after) {id : String} (isId : id ≠ "")
    (found : ∃ message ∈ before, message.id = some id) :
    ∃ message ∈ after, message.id = some id := by
  obtain ⟨message, member, same⟩ := found
  obtain ⟨place, here⟩ := mem_iff_getElem?.mp member
  obtain ⟨kept, there, sameId⟩ := keeps place message here
  refine ⟨kept, mem_of_getElem? there, ?_⟩
  rw [sameId (by simp [present, same, isId]), same]

end KeepsIds

def ChatStateChange.isMessages : ChatStateChange ι → Bool
  | .messages _ => true
  | _ => false

namespace AdapterState

/-- The messages that a step tells are those of the adapter after it, and a step that
tells none changes none. -/
structure Tells (state : AdapterState ι) (stepped : Stepped ι) : Prop where
  told : ∀ messages, .messages messages ∈ stepped.2 → messages = stepped.1.messages
  untold : (∀ change ∈ stepped.2, change.isMessages = false) →
    stepped.1.messages = state.messages
  keepsIds : KeepsIds state.messages stepped.1.messages

variable {state after : AdapterState ι}

theorem tells_silent {changes : List (ChatStateChange ι)} (same : after.messages = state.messages)
    (silent : ∀ change ∈ changes, change.isMessages = false) : state.Tells (after, changes) where
  told := fun messages member => by simpa [ChatStateChange.isMessages] using silent _ member
  untold := fun _ => same
  keepsIds := same ▸ KeepsIds.refl _

theorem tells_messages {more : List (ChatStateChange ι)}
    (keeps : KeepsIds state.messages after.messages)
    (silent : ∀ change ∈ more, change.isMessages = false) :
    state.Tells (after, .messages after.messages :: more) where
  told := by
    intro messages member
    rcases mem_cons.mp member with same | later
    · exact ChatStateChange.messages.inj same
    · simpa [ChatStateChange.isMessages] using silent _ later
  untold := fun none => by simpa [ChatStateChange.isMessages] using none _ mem_cons_self
  keepsIds := keeps

theorem tells_messagesChange (keeps : KeepsIds state.messages after.messages) :
    state.Tells after.messagesChange :=
  tells_messages keeps (by simp)

end AdapterState

open AdapterState

theorem keepsIds_findMessageForChunk (messages : List (Message ι)) (role : Role)
    (messageId : Option String) (created : Option Int) :
    KeepsIds messages (findMessageForChunk messages role messageId created).1 := by
  unfold findMessageForChunk
  split
  · exact KeepsIds.refl _
  · split
    · exact KeepsIds.refl _
    · split
      · exact KeepsIds.refl _
      · split
        · exact KeepsIds.refl _
        · next notPresent =>
          refine KeepsIds.modify fun message here isPresent => ?_
          exact absurd (by simpa [here] using isPresent) notPresent

variable (content : MessageContent ι) (message : Message ι) (now : Int) (state : AdapterState ι)

theorem id_addContent : (message.addContent content).id = message.id := by
  unfold Message.addContent
  split
  · rfl
  · split <;> rfl
  · rfl

theorem isMessages_confirmation (isSteerChunk : Bool) :
    ∀ change ∈ confirmation message isSteerChunk, change.isMessages = false := by
  intro change member
  unfold confirmation at member
  split at member
  · obtain ⟨id, -, rfl⟩ := mem_map.mp member
    rfl
  · cases member

theorem tells_extendMessage {state before : AdapterState ι} {place : Nat} {message : Message ι}
    (gooseMeta : GooseMessageMeta) (here : state.messages[place]? = some message)
    (keeps : KeepsIds before.messages state.messages) :
    before.Tells (extendMessage state place message content gooseMeta) := by
  unfold extendMessage
  dsimp only
  split
  · exact tells_messages (keeps.trans (KeepsIds.set here rfl)) (isMessages_confirmation _ _)
  · split
    · exact tells_messages (keeps.trans (KeepsIds.set here rfl)) (isMessages_confirmation _ _)
    · exact tells_messages (keeps.trans (KeepsIds.set here (id_addContent _ _)))
        (isMessages_confirmation _ _)

theorem tells_applyContentChunk (role : Role) (chunk : ContentChunk ι) :
    state.Tells (applyContentChunk now state role chunk) := by
  unfold applyContentChunk
  split
  · exact tells_silent rfl (by simp)
  · next content _ =>
    have keeps := keepsIds_findMessageForChunk state.messages role
      (chunk.messageId.or chunk.gooseMeta.messageId) chunk.gooseMeta.created
    dsimp only
    split
    · next place message found =>
      obtain ⟨other, -, isHere⟩ := Option.bind_eq_some_iff.mp found
      obtain ⟨message', here, same⟩ := Option.map_eq_some_iff.mp isHere
      cases same
      exact tells_extendMessage content chunk.gooseMeta here keeps
    · exact tells_messagesChange (keeps.trans (KeepsIds.append _ _))

theorem keepsIds_orNewMessage (role : Role) (messageId : Option String)
    (gooseMeta : GooseMessageMeta) (found : List (Message ι) × Option Nat) :
    KeepsIds found.1 (orNewMessage now role messageId gooseMeta found).1 := by
  unfold orNewMessage
  split
  · exact KeepsIds.refl _
  · exact KeepsIds.append _ _

theorem tells_applyThoughtChunk (chunk : ContentChunk ι) :
    state.Tells (applyThoughtChunk now state chunk) := by
  unfold applyThoughtChunk
  split
  · refine tells_messagesChange (KeepsIds.trans ?_ (KeepsIds.modify ?_))
    · exact (keepsIds_findMessageForChunk _ _ _ _).trans (keepsIds_orNewMessage _ _ _ _ _)
    · intros
      rfl
  · exact tells_silent rfl (by simp)

theorem tells_applyToolCall (update : ToolCallUpdate ι) :
    state.Tells (applyToolCall now state update) := by
  refine tells_messagesChange (KeepsIds.trans ?_ (KeepsIds.modify ?_))
  · exact (keepsIds_findMessageForChunk _ _ _ _).trans (keepsIds_orNewMessage _ _ _ _ _)
  · intros
    split <;> rfl

theorem tells_applyToolCallUpdate
    (toolResult : ToolCallState ι → Option ι → Except String (ToolResultValue ι)) (now : Int)
    (state : AdapterState ι) (update : ToolCallUpdate ι) :
    state.Tells (applyToolCallUpdate toolResult now state update) := by
  unfold applyToolCallUpdate
  dsimp only
  split
  · refine tells_silent rfl fun change member => ?_
    obtain ⟨message, -, rfl⟩ := mem_map.mp member
    rfl
  · split
    · exact tells_messagesChange (KeepsIds.refl _)
    · refine tells_messagesChange (KeepsIds.trans ?_ (KeepsIds.modify ?_))
      · exact keepsIds_orNewMessage now .user _ _ (state.messages, _)
      · intros
        rfl

namespace AdapterState

theorem tells_applyPermissionRequest (now : Int) (state : AdapterState ι)
    (request : PermissionRequest ι) : state.Tells (state.applyPermissionRequest now request) := by
  unfold applyPermissionRequest
  split
  · exact tells_messagesChange (KeepsIds.refl _)
  · exact tells_messagesChange (KeepsIds.append _ _)

theorem tells_applyElicitationRequest (now : Int) (state : AdapterState ι)
    (request : ElicitationRequest ι) : state.Tells (state.applyElicitationRequest now request) := by
  unfold applyElicitationRequest
  split
  · exact tells_messagesChange (KeepsIds.refl _)
  · exact tells_messagesChange (KeepsIds.append _ _)

theorem tells_applyElicitationStatus (elicitationId : String) (status : ElicitationStatus)
    (state : AdapterState ι) : state.Tells (state.applyElicitationStatus elicitationId status) := by
  unfold applyElicitationStatus
  split
  · refine tells_messagesChange (KeepsIds.map ?_ _)
    intro
    rfl
  · exact tells_silent rfl (by simp)

variable (host : AdapterHost ι)

theorem tells_apply (state : AdapterState ι) (update : SessionUpdate ι) :
    state.Tells (state.apply host update) := by
  cases update with
  | userMessageChunk chunk => exact tells_applyContentChunk _ _ _ _
  | agentMessageChunk chunk => exact tells_applyContentChunk _ _ _ _
  | agentThoughtChunk chunk => exact tells_applyThoughtChunk _ _ _
  | toolCall update => exact tells_applyToolCall _ _ _
  | toolCallUpdate update => exact tells_applyToolCallUpdate _ _ _ _
  | sessionInfoUpdate title activeRunId queuedSteerMessageId =>
    refine tells_silent rfl fun change member => ?_
    rcases mem_append.mp member with info | confirmed
    · split at info
      · cases mem_singleton.mp info
        rfl
      · cases info
    · obtain ⟨id, -, rfl⟩ := mem_map.mp confirmed
      rfl
  | usageUpdate => exact tells_silent rfl (by simp)
  | other => exact tells_silent rfl (by simp)

theorem tells_applyGoose (state : AdapterState ι) (update : GooseSessionUpdate ι) :
    state.Tells (state.applyGoose host update) := by
  cases update with
  | usageUpdate used input output cost =>
    exact tells_silent rfl (by simp [ChatStateChange.isMessages])
  | progress message => exact tells_silent rfl (by simp [ChatStateChange.isMessages])
  | notice id message => exact tells_messagesChange (KeepsIds.append _ _)
  | messageUsage messageId usage =>
    dsimp only [applyGoose]
    split
    · refine tells_messagesChange (KeepsIds.modify ?_)
      intros
      rfl
    · exact tells_silent rfl (by simp)
  | other => exact tells_silent rfl (by simp)

end AdapterState

end Obelus.Acp
