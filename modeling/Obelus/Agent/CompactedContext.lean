import Obelus.Agent.Compaction

/-!
# What compaction keeps

The user keeps the whole conversation, and the agent is given the summary, the
note to go on, the last prompt with its texts for the agent, and the last context
event after it.
-/

namespace Obelus.Agent

open List
variable {ι σ : Type}

/-- The texts of a message that the agent may read. -/
def Message.agentTexts (message : Message ι) : List (MessageContent ι) :=
  message.agentVisibleContent.content.filter MessageContent.isText

/-- A message of the user to the agent: some text for the agent, no tool exchange
and no context event. -/
structure Message.IsPrompt (message : Message ι) : Prop where
  agentVisible : message.metadata.agentVisible = true
  notEvent : message.metadata.turnContext = false
  ofUser : message.role = .user
  hasText : message.agentTexts ≠ []
  noExchange : ∀ block ∈ message.agentVisibleContent.content, block.isToolExchange = false

/-- A context event that the agent sees. -/
def Message.IsEvent (message : Message ι) : Prop :=
  message.metadata.turnContext = true ∧ message.metadata.agentVisible = true

/-- The prompt as it is kept: what the agent may read of it, for the agent only. -/
structure PromptCopy (prompt kept : Message ι) : Prop where
  role : kept.role = .user
  content : kept.content = prompt.agentTexts
  metadata : kept.metadata = .agentOnly

/-- The event as it is carried: a copy with another id and time. -/
structure EventCopy (event carried : Message ι) : Prop where
  role : carried.role = event.role
  content : carried.content = event.content
  metadata : carried.metadata = event.metadata

/-- What of the turn is kept behind the summary and the note: in automatic mode
the last prompt and the last context event after it. -/
inductive KeptTurn (conversation : List (Message ι)) : Bool → List (Message ι) → Prop
  | manual : KeptTurn conversation true []
  | noPrompt (none : ∀ message ∈ conversation, ¬message.IsPrompt) :
      KeptTurn conversation false []
  | prompt {before after : List (Message ι)} {prompt kept : Message ι}
      (split : conversation = before ++ prompt :: after) (isPrompt : prompt.IsPrompt)
      (last : ∀ message ∈ after, ¬message.IsPrompt) (copy : PromptCopy prompt kept)
      (noEvent : ∀ message ∈ after, ¬message.IsEvent) :
      KeptTurn conversation false [kept]
  | event {before between after : List (Message ι)} {prompt kept event carried : Message ι}
      (split : conversation = before ++ prompt :: (between ++ event :: after))
      (isPrompt : prompt.IsPrompt)
      (last : ∀ message ∈ between ++ event :: after, ¬message.IsPrompt)
      (copy : PromptCopy prompt kept) (isEvent : event.IsEvent)
      (lastEvent : ∀ message ∈ after, ¬message.IsEvent) (eventCopy : EventCopy event carried) :
      KeptTurn conversation false [kept, carried]

variable {message preserved : Message ι} {conversation messages : List (Message ι)}
  {host : CompactionHost ι σ}

theorem preservedFrom_eq_none_iff : preservedFrom message = none ↔ ¬message.IsPrompt := by
  have textFound : message.agentVisibleContent.content.any MessageContent.isText = true ↔
      message.agentTexts ≠ [] := by
    rw [Message.agentTexts]
    simp
  have exchangeFound : message.agentVisibleContent.content.any MessageContent.isToolExchange =
      false ↔ ∀ block ∈ message.agentVisibleContent.content, block.isToolExchange = false := by
    simp
  have isPrompt_iff : message.IsPrompt ↔ message.metadata.agentVisible = true ∧
      message.metadata.turnContext = false ∧ message.role = .user ∧
      hasTextOnly message.agentVisibleContent = true := by
    rw [hasTextOnly, Bool.and_eq_true, Bool.not_eq_true', textFound, exchangeFound]
    constructor
    · rintro ⟨agentVisible, notEvent, ofUser, hasText, noExchange⟩
      exact ⟨agentVisible, notEvent, ofUser, hasText, noExchange⟩
    · rintro ⟨agentVisible, notEvent, ofUser, hasText, noExchange⟩
      exact ⟨agentVisible, notEvent, ofUser, hasText, noExchange⟩
  rw [isPrompt_iff, preservedFrom]
  cases message.metadata.agentVisible <;> cases message.metadata.turnContext <;>
    cases message.role <;> cases text : hasTextOnly message.agentVisibleContent <;> simp [text]

theorem promptCopy_of_preservedFrom (found : preservedFrom message = some preserved) :
    PromptCopy message preserved := by
  rw [preservedFrom] at found
  split at found
  · exact absurd found (by simp)
  · dsimp only at found
    split at found
    · exact absurd found (by simp)
    · cases found
      exact ⟨rfl, rfl, rfl⟩

theorem findPreserved_eq_none_iff :
    findPreserved conversation = none ↔ ∀ message ∈ conversation, ¬message.IsPrompt := by
  induction conversation with
  | nil => simp [findPreserved]
  | cons message rest ih =>
    rw [findPreserved, forall_mem_cons, ← ih, ← preservedFrom_eq_none_iff]
    cases findPreserved rest with
    | none => simp
    | some found => simp

theorem exists_split_of_findPreserved {after : List (Message ι)}
    (found : findPreserved conversation = some (preserved, after)) :
    ∃ before prompt, conversation = before ++ prompt :: after ∧ prompt.IsPrompt ∧
      (∀ message ∈ after, ¬message.IsPrompt) ∧ PromptCopy prompt preserved := by
  induction conversation with
  | nil => exact absurd found (by simp [findPreserved])
  | cons message rest ih =>
    rw [findPreserved] at found
    cases later : findPreserved rest with
    | some foundLater =>
      rw [later] at found
      obtain ⟨before, prompt, rfl, isPrompt, last, copy⟩ := ih (later.trans found)
      exact ⟨message :: before, prompt, rfl, isPrompt, last, copy⟩
    | none =>
      simp only [later, Option.map_eq_some_iff] at found
      obtain ⟨kept, isKept, rfl, rfl⟩ := found
      have isPrompt : message.IsPrompt := by
        by_contra noPrompt
        rw [preservedFrom_eq_none_iff.mpr noPrompt] at isKept
        cases isKept
      exact ⟨[], message, rfl, isPrompt, findPreserved_eq_none_iff.mp later,
        promptCopy_of_preservedFrom isKept⟩

theorem role_of_applyStructuredSummary (host : CompactionHost ι σ) (response : Message ι) :
    (applyStructuredSummary host response).role = response.role := by
  rw [applyStructuredSummary]
  split
  · rfl
  · split
    · split <;> rfl
    · rfl

/-- The summary is a message of the user. -/
theorem role_of_attemptCompact {percentages : List Nat} {summary : Message ι}
    (done : attemptCompact host messages percentages = .ok summary) : summary.role = .user := by
  induction percentages with
  | nil => exact absurd done (by simp [attemptCompact])
  | cons removePercent rest ih =>
    cases rest with
    | nil =>
      simp only [attemptCompact] at done
      split at done
      · cases done
      · split at done
        · cases done
          exact role_of_applyStructuredSummary host _
        · cases done
        · cases done
    | cons next later =>
      rw [attemptCompact] at done
      · split at done
        · cases done
        · split at done
          · cases done
            exact role_of_applyStructuredSummary host _
          · exact ih done
          · cases done
      · exact cons_ne_nil next later

theorem mergeConsecutiveMessages_pair (first : Message ι) {second : Message ι}
    (ofUser : first.role = .user) (ofAssistant : second.role = .assistant) :
    mergeConsecutiveMessages [first, second] = [first, second] := by
  have different : effectiveRole first ≠ effectiveRole second := by
    simp only [effectiveRole, ofUser, ofAssistant]
    split <;> simp
  simp [mergeConsecutiveMessages, mergeConsecutiveMessage, different]

section KeptTurn

variable {conversation turn : List (Message ι)} {manualCompact : Bool}

theorem KeptTurn.agentVisible (kept : KeptTurn conversation manualCompact turn) :
    ∀ message ∈ turn, message.metadata.agentVisible = true := by
  intro message member
  cases kept with
  | manual => exact absurd member not_mem_nil
  | noPrompt => exact absurd member not_mem_nil
  | prompt _ _ _ copy _ =>
    rw [mem_singleton.mp member, copy.metadata]
    rfl
  | event _ _ _ copy isEvent _ eventCopy =>
    rcases mem_cons.mp member with rfl | inRest
    · rw [copy.metadata]
      rfl
    · rw [mem_singleton.mp inRest, eventCopy.metadata]
      exact isEvent.2

/-- Only a carried context event can be seen by the user. -/
theorem KeptTurn.turnContext (kept : KeptTurn conversation manualCompact turn) :
    ∀ message ∈ turn, message.metadata = .agentOnly ∨ message.metadata.turnContext = true := by
  intro message member
  cases kept with
  | manual => exact absurd member not_mem_nil
  | noPrompt => exact absurd member not_mem_nil
  | prompt _ _ _ copy _ =>
    rw [mem_singleton.mp member]
    exact Or.inl copy.metadata
  | event _ _ _ copy isEvent _ eventCopy =>
    rcases mem_cons.mp member with rfl | inRest
    · exact Or.inl copy.metadata
    · rw [mem_singleton.mp inRest, eventCopy.metadata]
      exact Or.inr isEvent.1

theorem not_hasUserOnlyPart_of_mem_agentTexts {message : Message ι} {block : MessageContent ι}
    (member : block ∈ message.agentTexts) : ¬block.HasUserOnlyPart := by
  rw [Message.agentTexts, mem_filter, Message.agentVisibleContent, mem_filterMap] at member
  obtain ⟨⟨source, -, filtered⟩, isText⟩ := member
  cases block with
  | text content =>
    cases source with
    | text original =>
      simp only [MessageContent.filterForAudience, Option.ite_none_right_eq_some,
        Option.some.injEq, MessageContent.text.injEq] at filtered
      obtain ⟨addressed, rfl⟩ := filtered
      simp [MessageContent.HasUserOnlyPart, addressed]
    | toolResponse response =>
      simp only [MessageContent.filterForAudience] at filtered
      split at filtered <;> cases filtered
    | _ => simp_all [MessageContent.filterForAudience]
  | _ => exact absurd isText (by simp [MessageContent.isText])

theorem KeptTurn.noUserOnlyPart (kept : KeptTurn conversation manualCompact turn) :
    ∀ message ∈ turn, message.metadata.turnContext = false →
      ∀ block ∈ message.content, ¬block.HasUserOnlyPart := by
  intro message member notEvent block inContent
  cases kept with
  | manual => exact absurd member not_mem_nil
  | noPrompt => exact absurd member not_mem_nil
  | prompt _ _ _ copy _ =>
    rw [mem_singleton.mp member, copy.content] at inContent
    exact not_hasUserOnlyPart_of_mem_agentTexts inContent
  | event _ _ _ copy isEvent _ eventCopy =>
    rcases mem_cons.mp member with rfl | inRest
    · rw [copy.content] at inContent
      exact not_hasUserOnlyPart_of_mem_agentTexts inContent
    · rw [mem_singleton.mp inRest, eventCopy.metadata, isEvent.1] at notEvent
      exact Bool.noConfusion notEvent

end KeptTurn

/-- The compacted conversation is the hidden history, the summary, the note and
the kept turn. -/
theorem exists_parts_of_compactMessages {compacted : List (Message ι)} {manualCompact : Bool}
    (done : compactMessages host conversation manualCompact = .ok compacted) :
    ∃ reply continuation turn, doCompact host conversation = .ok reply ∧
      compacted = conversation.map Message.hidden ++
        { reply with metadata := .agentOnly } :: continuation :: turn ∧
      continuation.role = .assistant ∧ continuation.metadata = .agentOnly ∧
      (∃ text, continuation.content = [.text { text, audience := none }]) ∧
      KeptTurn conversation manualCompact turn := by
  rw [compactMessages] at done
  cases summarized : doCompact host conversation with
  | error error =>
    rw [summarized] at done
    cases done
  | ok reply =>
    have ofUser : reply.role = .user := role_of_attemptCompact summarized
    simp only [summarized] at done
    have apart := fun (continuation : Message ι) (ofAssistant : continuation.role = .assistant) =>
      mergeConsecutiveMessages_pair { reply with metadata := .agentOnly } ofUser ofAssistant
    rw [apart _ rfl] at done
    cases manualCompact with
    | true =>
      simp only [if_true, Except.ok.injEq] at done
      exact ⟨reply, _, [], rfl, done.symm, rfl, rfl, ⟨_, rfl⟩, .manual⟩
    | false =>
      simp only [Bool.false_eq_true, if_false] at done
      cases found : findPreserved conversation with
      | none =>
        simp only [found, Except.ok.injEq] at done
        exact ⟨reply, _, [], rfl, done.symm, rfl, rfl, ⟨_, rfl⟩,
          .noPrompt (findPreserved_eq_none_iff.mp found)⟩
      | some keptAndAfter =>
        rcases keptAndAfter with ⟨preserved, after⟩
        obtain ⟨before, prompt, split, isPrompt, last, copy⟩ := exists_split_of_findPreserved found
        simp only [found] at done
        have copied : PromptCopy prompt { preserved with created := host.timestamp } :=
          ⟨copy.role, copy.content, copy.metadata⟩
        cases event : after.reverse.find? fun message =>
            message.metadata.turnContext && message.metadata.agentVisible with
        | none =>
          simp only [event, Except.ok.injEq, append_assoc] at done
          refine ⟨reply, _, _, rfl, done.symm, rfl, rfl, ⟨_, rfl⟩,
            .prompt split isPrompt last copied fun message member isEvent => ?_⟩
          have unseen := find?_eq_none.mp event message (mem_reverse.mpr member)
          simp [isEvent.1, isEvent.2] at unseen
        | some turnContext =>
          simp only [event, Except.ok.injEq, append_assoc] at done
          obtain ⟨isEvent, later, between, reversed, unseen⟩ := find?_eq_some_iff_append.mp event
          have afterSplit : after = between.reverse ++ turnContext :: later.reverse := by
            simpa using congrArg reverse reversed
          rw [Bool.and_eq_true] at isEvent
          subst afterSplit
          refine ⟨reply, _, _, rfl, done.symm, rfl, rfl, ⟨_, rfl⟩,
            .event split isPrompt last copied isEvent (fun message member isEvent => ?_)
              ⟨rfl, rfl, rfl⟩⟩
          have notSeen := unseen message (mem_reverse.mp member)
          simp [isEvent.1, isEvent.2] at notSeen

theorem userVisibleMessages_append (first second : List (Message ι)) :
    userVisibleMessages (first ++ second) =
      userVisibleMessages first ++ userVisibleMessages second := by
  simp [userVisibleMessages]

/-- Hiding messages from the agent changes nothing else for the user. -/
theorem userVisibleMessages_map_hidden (conversation : List (Message ι)) :
    userVisibleMessages (conversation.map Message.hidden) =
      (userVisibleMessages conversation).map Message.hidden := by
  simp only [userVisibleMessages, filter_map, map_map]
  rfl

theorem userVisibleMessages_eq_nil
    (hidden : ∀ message ∈ messages, message.metadata.userVisible = false) :
    userVisibleMessages messages = [] := by
  have none : messages.filter (fun message => message.metadata.userVisible) = [] := by
    rw [filter_eq_nil_iff]
    intro message member
    simp [hidden message member]
  rw [userVisibleMessages, none]
  rfl

/-- The compacted conversation in parts, and what the agent and the user see of
them. -/
structure IsCompaction (manualCompact : Bool)
    (conversation compacted : List (Message ι)) (summary continuation : Message ι)
    (turn : List (Message ι)) : Prop where
  parts : compacted = conversation.map Message.hidden ++ summary :: continuation :: turn
  summary_role : summary.role = .user
  continuation_role : continuation.role = .assistant
  keptTurn : KeptTurn conversation manualCompact turn
  agentView : (compacted.filter fun message => message.metadata.agentVisible) =
    summary :: continuation :: turn
  agentOnly : ∀ message ∈ summary :: continuation :: turn,
    message.metadata = .agentOnly ∨ message.metadata.turnContext = true
  userView : userVisibleMessages compacted =
    (userVisibleMessages conversation).map Message.hidden ++ userVisibleMessages turn
  noUserOnlyPart : ∀ message ∈ continuation :: turn, message.metadata.turnContext = false →
    ∀ block ∈ message.content, ¬block.HasUserOnlyPart

/-- Compaction keeps the history for the user and gives the agent the summary,
the note and the kept turn. -/
theorem exists_isCompaction {host : CompactionHost ι σ}
    {conversation compacted : List (Message ι)} {manualCompact : Bool}
    (done : compactMessages host conversation manualCompact = .ok compacted) :
    ∃ reply continuation turn, doCompact host conversation = .ok reply ∧
      IsCompaction manualCompact conversation compacted { reply with metadata := .agentOnly }
        continuation turn := by
  obtain ⟨reply, continuation, turn, summarized, rfl, ofAssistant, noteOnly, ⟨text, isNote⟩,
    kept⟩ := exists_parts_of_compactMessages done
  have ofUser : reply.role = .user := role_of_attemptCompact summarized
  refine ⟨reply, continuation, turn, summarized, rfl, ofUser, ofAssistant, kept, ?_, ?_, ?_, ?_⟩
  · have noHistory : (conversation.map Message.hidden).filter
        (fun message => message.metadata.agentVisible) = [] := by
      simp [filter_eq_nil_iff, Message.hidden, MessageMetadata.withAgentInvisible]
    rw [filter_append, noHistory, nil_append, filter_eq_self]
    refine forall_mem_cons.mpr ⟨rfl, forall_mem_cons.mpr ⟨?_, kept.agentVisible⟩⟩
    rw [noteOnly]
    rfl
  · exact forall_mem_cons.mpr ⟨Or.inl rfl, forall_mem_cons.mpr ⟨Or.inl noteOnly, kept.turnContext⟩⟩
  · have unseen :
        userVisibleMessages [{ reply with metadata := .agentOnly }, continuation] = [] := by
      apply userVisibleMessages_eq_nil
      simp [noteOnly, MessageMetadata.agentOnly]
    have split : { reply with metadata := .agentOnly } :: continuation :: turn =
        [{ reply with metadata := .agentOnly }, continuation] ++ turn :=
      rfl
    rw [split, userVisibleMessages_append, userVisibleMessages_append, unseen, nil_append,
      userVisibleMessages_map_hidden]
  · refine forall_mem_cons.mpr ⟨fun _ block inContent => ?_, kept.noUserOnlyPart⟩
    rw [isNote, mem_singleton] at inContent
    rw [inContent]
    simp [MessageContent.HasUserOnlyPart, addresses]

/-- A model that answers with two texts, the second for the user only. -/
def twoTextHost : CompactionHost String Unit where
  timestamp := 300
  sanitizeUnicodeTags := id
  argumentsText := fun arguments => arguments.getD "null"
  renderCompaction := .ok
  completeFast _ := .ok
    { role := .assistant
      created := 300
      content := [.text ⟨"summary", none⟩, .text ⟨"aside", some [.user]⟩] }
  parseSummary _ := none
  renderSummary _ := .ok ""

/-- A prompt, a picture, a context event that the user sees too, with a text for
the user only, and a later event that the agent does not see. -/
def mixedConversation : List (Message String) :=
  [{ role := .user, created := 100, content := [.text ⟨"fix the parser", none⟩] },
    { role := .user, created := 110, content := [.image ⟨"bytes", "image/png", none⟩] },
    { role := .user, created := 120,
      content := [.text ⟨"cwd /src", none⟩, .text ⟨"note", some [.user]⟩],
      metadata := { turnContext := true } },
    { role := .user, created := 130, content := [.text ⟨"cwd /new", none⟩],
      metadata := { agentVisible := false, turnContext := true } }]

theorem exists_isCompaction_mixedConversation :
    ∃ (compacted : List (Message String)) (reply continuation : Message String)
        (turn : List (Message String)),
      compactMessages twoTextHost mixedConversation false = .ok compacted ∧
        IsCompaction false mixedConversation compacted { reply with metadata := .agentOnly }
          continuation turn := by
  have done : compactMessages twoTextHost mixedConversation false = .ok _ := rfl
  obtain ⟨reply, continuation, turn, -, isCompaction⟩ := exists_isCompaction done
  exact ⟨_, reply, continuation, turn, rfl, isCompaction⟩

/-- The carried event is seen by the user, the summary and the event keep texts
for the user only, the prompt in front of the picture is kept, and the carried
event is not the last one. -/
theorem not_agentOnly_mixedConversation : ∃ summary continuation prompt event,
      compactMessages twoTextHost mixedConversation false =
          .ok (mixedConversation.map Message.hidden ++ [summary, continuation, prompt, event]) ∧
        event.metadata ≠ .agentOnly ∧
        userVisibleMessages
            (mixedConversation.map Message.hidden ++ [summary, continuation, prompt, event]) ≠
          userVisibleMessages (mixedConversation.map Message.hidden) ∧
        (∃ block ∈ summary.content, block.HasUserOnlyPart) ∧
        (∃ block ∈ event.content, block.HasUserOnlyPart) ∧
        prompt.content = [.text ⟨"fix the parser", none⟩] ∧
        event.content ≠ [.text ⟨"cwd /new", none⟩] := by
  refine ⟨_, _, _, _, rfl, by decide, by decide, ?_, ?_, rfl, by decide⟩
  · exact ⟨_, mem_cons_of_mem _ mem_cons_self, rfl⟩
  · exact ⟨_, mem_cons_of_mem _ mem_cons_self, rfl⟩

end Obelus.Agent
