import Mathlib.Algebra.Order.BigOperators.Group.List
import Mathlib.Algebra.Order.Ring.Nat
import Obelus.Agent.StoredEffects

/-!
# Tool pairs

A tool request and its response stand in two messages that can be hidden together.  The calls
that count are those before the turn that the agent sees.
-/

namespace Obelus.Agent

open List

variable {ι : Type}

/-! ## Pairs -/

def Message.requestIds (message : Message ι) : List String :=
  message.toolRequests.map ToolRequest.id

def Message.responseIds (message : Message ι) : List String :=
  message.toolResponses.map ToolResponse.id

variable {message : Message ι} {hidden : List String}
  {conversation pair messages : List (Message ι)}

theorem Message.hasToolId_iff {id : String} :
    message.hasToolId id = true ↔ id ∈ message.requestIds ∨ id ∈ message.responseIds := by
  simp only [Message.hasToolId, Message.requestIds, Message.responseIds, Message.toolRequests,
    Message.toolResponses, any_eq_true, mem_map, mem_filterMap]
  constructor
  · rintro ⟨block, isIn, isId⟩
    cases block with
    | toolRequest request => exact .inl ⟨request, ⟨_, isIn, rfl⟩, of_decide_eq_true isId⟩
    | toolResponse response => exact .inr ⟨response, ⟨_, isIn, rfl⟩, of_decide_eq_true isId⟩
    | _ => cases isId
  · rintro (⟨request, ⟨block, isIn, isRequest⟩, rfl⟩ | ⟨response, ⟨block, isIn, isResponse⟩, rfl⟩)
    · refine ⟨block, isIn, ?_⟩
      cases block with
      | toolRequest other =>
        cases isRequest
        exact decide_eq_true rfl
      | _ => cases isRequest
    · refine ⟨block, isIn, ?_⟩
      cases block with
      | toolResponse other =>
        cases isResponse
        exact decide_eq_true rfl
      | _ => cases isResponse

/-- The request and the response of the call are both seen by the agent, or both hidden. -/
def SeenTogether (conversation : List (Message ι)) (id : String) : Prop :=
  ∀ request ∈ conversation, id ∈ request.requestIds →
    ∀ response ∈ conversation, id ∈ response.responseIds →
      request.metadata.agentVisible = response.metadata.agentVisible

/-- The effects that hide a pair. -/
def hidePair (pair : List (Message ι)) : List (StateEffect ι) :=
  pair.filterMap fun message => message.id.map fun id =>
    .setMessageVisibility id message.metadata.userVisible false

/-- The message has one of the hidden ids. -/
def Message.isAmong (hidden : List String) (message : Message ι) : Bool :=
  message.id.any fun id => id ∈ hidden

def Message.hideAmong (hidden : List String) (message : Message ι) : Message ι :=
  if message.isAmong hidden then message.hidden else message

section

variable (hidden)

@[simp]
theorem Message.id_hideAmong (message : Message ι) :
    (message.hideAmong hidden).id = message.id := by
  rw [hideAmong]
  split <;> rfl

@[simp]
theorem Message.content_hideAmong (message : Message ι) :
    (message.hideAmong hidden).content = message.content := by
  rw [hideAmong]
  split <;> rfl

@[simp]
theorem Message.requestIds_hideAmong (message : Message ι) :
    (message.hideAmong hidden).requestIds = message.requestIds := by
  simp [requestIds, toolRequests]

@[simp]
theorem Message.responseIds_hideAmong (message : Message ι) :
    (message.hideAmong hidden).responseIds = message.responseIds := by
  simp [responseIds, toolResponses]

theorem Message.agentVisible_hideAmong (message : Message ι) :
    (message.hideAmong hidden).metadata.agentVisible =
      (message.metadata.agentVisible && !message.isAmong hidden) := by
  rw [hideAmong]
  split
  · next isHidden => simp [isHidden, Message.hidden, MessageMetadata.withAgentInvisible]
  · next notHidden => simp [notHidden]

theorem isKickoff_hideAmong (message : Message ι) :
    isKickoff (message.hideAmong hidden) = isKickoff message := by
  rw [Message.hideAmong]
  split <;> rfl

end

theorem Message.isAmong_iff :
    message.isAmong hidden = true ↔ ∃ id ∈ hidden, message.id = some id := by
  cases isId : message.id <;> simp [isAmong, isId]

theorem Message.isAmong_append {first second : List String} :
    message.isAmong (first ++ second) = (message.isAmong first || message.isAmong second) := by
  cases isId : message.id <;> simp [isAmong, isId]

/-- A pair as the operation finds it. -/
theorem summarizablePair_eq_some_iff {id : String} :
    summarizablePair conversation hidden id = some pair ↔
      pair = (conversation.filter fun message => message.id.isSome && message.hasToolId id) ∧
      pair.length = 2 ∧ (∀ message ∈ pair, message.isAmong hidden = false) ∧
      pair.flatMap Message.requestIds ⊆ pair.flatMap Message.responseIds ∧
      pair.flatMap Message.responseIds ⊆ pair.flatMap Message.requestIds := by
  simp only [summarizablePair, map_flatMap]
  obtain ⟨found, isFound⟩ : ∃ found,
      (conversation.filter fun message => message.id.isSome && message.hasToolId id) = found :=
    ⟨_, rfl⟩
  rw [isFound]
  split
  · next notPair =>
    simp only [reduceCtorEq, false_iff]
    rintro ⟨rfl, isTwo, notHidden, -⟩
    obtain notTwo | isHidden := notPair
    · exact notTwo isTwo
    · obtain ⟨message, isIn, isAmong⟩ := any_eq_true.mp isHidden
      exact Bool.false_ne_true ((notHidden message isIn).symm.trans isAmong)
  · next isPair =>
    obtain ⟨isTwo, notHidden⟩ := not_or.mp isPair
    have areVisible : ∀ message ∈ found, message.isAmong hidden = false := by
      simpa [Message.isAmong] using notHidden
    split
    · next sameIds =>
      rw [Option.some.injEq]
      constructor
      · rintro rfl
        exact ⟨rfl, not_not.mp isTwo, areVisible, sameIds.1, sameIds.2⟩
      · rintro ⟨rfl, -⟩
        rfl
    · next otherIds =>
      simp only [reduceCtorEq, false_iff]
      rintro ⟨rfl, -, -, requests, responses⟩
      exact otherIds ⟨requests, responses⟩

theorem mem_pair_iff {id : String} (isPair : summarizablePair conversation hidden id = some pair) :
    message ∈ pair ↔ message ∈ conversation ∧ message.id.isSome ∧ message.hasToolId id := by
  rw [(summarizablePair_eq_some_iff.mp isPair).1, mem_filter, Bool.and_eq_true]

/-- Some message of a pair has the request. -/
theorem exists_request_of_pair {id : String}
    (isPair : summarizablePair conversation hidden id = some pair) :
    ∃ message ∈ pair, id ∈ message.requestIds := by
  obtain ⟨-, isTwo, -, -, responses⟩ := summarizablePair_eq_some_iff.mp isPair
  obtain ⟨message, isIn⟩ := exists_mem_of_length_pos (by omega : 0 < pair.length)
  obtain isRequest | isResponse := Message.hasToolId_iff.mp ((mem_pair_iff isPair).mp isIn).2.2
  · exact ⟨message, isIn, isRequest⟩
  · exact mem_flatMap.mp (responses (mem_flatMap.mpr ⟨message, isIn, isResponse⟩))

/-- Only a request is a request for an audience. -/
theorem eq_toolRequest_of_filterForAudience {audience : Obelus.Conversation.Role}
    {block : MessageContent ι} {request : ToolRequest ι}
    (isFiltered : block.filterForAudience audience = some (.toolRequest request)) :
    block = .toolRequest request := by
  cases block with
  | toolRequest other =>
    cases isFiltered
    rfl
  | toolResponse response =>
    cases isResult : response.toolResult <;>
      simp [MessageContent.filterForAudience, isResult] at isFiltered
  | _ => simp [MessageContent.filterForAudience] at isFiltered

theorem exists_request_of_agentVisibleToolPair {id : String}
    (isPair : agentVisibleToolPair conversation id = some messages) :
    messages = agentVisibleMessages (conversation.filter (Message.hasToolId id)) ∧
      ∃ seen ∈ messages, id ∈ seen.requestIds := by
  rw [agentVisibleToolPair] at isPair
  split at isPair
  · next isBoth =>
    obtain ⟨seen, isSeen, isRequest⟩ := any_eq_true.mp (Bool.and_eq_true_iff.mp isBoth).1
    obtain ⟨request, isIn, isId⟩ := any_eq_true.mp isRequest
    cases isPair
    exact ⟨rfl, seen, isSeen, mem_map.mpr ⟨request, isIn, of_decide_eq_true isId⟩⟩
  · cases isPair

/-- A pair that is summarized has a request that the agent sees. -/
theorem exists_visible_of_agentVisibleToolPair {id : String}
    (isPair : agentVisibleToolPair conversation id = some messages) :
    ∃ message ∈ conversation, message.metadata.agentVisible = true ∧ id ∈ message.requestIds := by
  obtain ⟨rfl, seen, isSeen, isRequest⟩ := exists_request_of_agentVisibleToolPair isPair
  obtain ⟨request, isIn, isId⟩ := mem_map.mp isRequest
  obtain ⟨message, isVisible, rfl⟩ := mem_map.mp (mem_filter.mp isSeen).1
  obtain ⟨isMatching, isVisible⟩ := mem_filter.mp isVisible
  refine ⟨message, (mem_filter.mp isMatching).1, isVisible, mem_map.mpr ⟨request, ?_, isId⟩⟩
  obtain ⟨block, isBlock, isRequest⟩ := mem_filterMap.mp isIn
  obtain ⟨source, isSource, isFiltered⟩ := mem_filterMap.mp isBlock
  refine mem_filterMap.mpr ⟨source, isSource, ?_⟩
  cases block with
  | toolRequest other =>
    cases isRequest
    rw [eq_toolRequest_of_filterForAudience isFiltered]
  | _ => cases isRequest

/-- A pair that the agent sees is summarized when the call for it is answered. -/
theorem summarizeToolCall_isSome
    {summarize : String → List (Message ι) → Option (List (MessageContent ι))} {id : String}
    (isPair : agentVisibleToolPair conversation id = some messages)
    (succeeds : (summarize id messages).isSome) :
    (summarizeToolCall summarize conversation id).isSome := by
  obtain ⟨content, isContent⟩ := Option.isSome_iff_exists.mp succeeds
  obtain ⟨-, seen, isSeen, -⟩ := exists_request_of_agentVisibleToolPair isPair
  rw [summarizeToolCall, isPair]
  simp [getLast?_eq_some_getLast (ne_nil_of_mem isSeen), isContent]

/-! ## Calls before the turn -/

def Message.visibleCalls (message : Message ι) : Nat :=
  if message.metadata.agentVisible then message.toolRequests.length else 0

/-- The number of tool calls before the turn that the agent sees. -/
def callsBeforeTurn (conversation : List (Message ι)) : Nat :=
  ((beforeKickoff conversation).map Message.visibleCalls).sum

theorem visibleCalls_hideAmong_le (hidden : List String) (message : Message ι) :
    (message.hideAmong hidden).visibleCalls ≤ message.visibleCalls := by
  rw [Message.visibleCalls, Message.visibleCalls, Message.agentVisible_hideAmong]
  cases message.metadata.agentVisible <;> cases message.isAmong hidden <;>
    simp [Message.toolRequests]

/-- The ids that the operation tries. -/
def compactionCandidates (conversation : List (Message ι)) (cutoff : Nat) : List String :=
  toolIdsToSummarize conversation cutoff
    ((((fromKickoff conversation).getD []).flatMap Message.toolRequests).length)

end Obelus.Agent

/-!
## Compacted tool pairs

The operation hides the oldest pairs of a tool request and its response behind summaries.  An
account of its loop says what is hidden once the effects are applied.
-/

namespace Obelus.Agent

open List

variable {ι : Type}

/-! ## Repetitions -/

section Repetitions

variable (newMessageId : Nat → String) (cutoff : Nat)

/-- The effects of the operation are applied. -/
def Compacts (summarize : String → List (Message ι) → Option (List (MessageContent ι)))
    (session changed : Session ι) : Prop :=
  ∃ result,
    (toolPairCompactionOperation true cutoff summarize).run session.conversation = .ok result ∧
      applyEffects newMessageId session (effectsOf result) = (changed, none)

/-- A new id is no id of the conversation. -/
def FreshIds (session : Session ι) : Prop :=
  ∀ place, session.rows.length ≤ place →
    ∀ message ∈ session.conversation, message.id ≠ some (newMessageId place)

/-- The operation again and again, with the answers to its summary calls. -/
structure Repetition (ι : Type) where
  session : Nat → Session ι
  summarize : Nat → String → List (Message ι) → Option (List (MessageContent ι))
  compacts : ∀ n, Compacts newMessageId cutoff (summarize n) (session n) (session (n + 1))
  freshIds : ∀ n, FreshIds newMessageId (session n)

end Repetitions

/-- The stored message is the summary of the call. -/
def IsSummary (summarize : String → List (Message ι) → Option (List (MessageContent ι)))
    (conversation : List (Message ι)) (id : String) (stored : Message ι) : Prop :=
  ∃ summary, summarizeToolCall summarize conversation id = some summary ∧ StoredAs summary stored

/-- What is hidden is summarized, once, and neither parts a call nor reaches into the turn. -/
structure HidesSummarized (summarize : String → List (Message ι) → Option (List (MessageContent ι)))
    (before after : List (Message ι)) (hidden summarized : List String)
    (stored : List (Message ι)) : Prop where
  kept : after = before.map (Message.hideAmong hidden) ++ stored
  summaries : List.Forall₂ (IsSummary summarize before) summarized stored
  seenTogether : ∀ id, SeenTogether before id → SeenTogether after id
  turnKept : ∀ turn, fromKickoff before = some turn →
    ∀ message ∈ turn, message.isAmong hidden = false
  coveredOnce : ∀ message ∈ before, message.isAmong hidden = true →
    summarized.countP (fun id => message.hasToolId id) = 1

/-- The pair shares nothing with other messages, lies before the turn, and its summary makes no
calls. -/
structure Separable (conversation pair : List (Message ι)) (summary : Message ι) : Prop where
  ownIds : ∀ message ∈ pair, ∀ other ∈ conversation, other.id = message.id → other = message
  ownCalls : ∀ message ∈ pair, ∀ id ∈ message.requestIds, ∀ other ∈ conversation,
    other.metadata.agentVisible = true → other.hasToolId id = true → other ∈ pair
  early : ∀ turn, fromKickoff conversation = some turn → ∀ message ∈ pair, message ∉ turn
  noRequest : summary.toolRequests = []
  noResponse : summary.toolResponses = []

namespace Repetition

variable {newMessageId : Nat → String} {cutoff : Nat}

def conversation (run : Repetition newMessageId cutoff ι) (n : Nat) : List (Message ι) :=
  (run.session n).conversation

/-- Every summary call is answered. -/
def Succeeds (run : Repetition newMessageId cutoff ι) : Prop :=
  ∀ n id messages, (run.summarize n id messages).isSome

/-- The pairs that are summarized are separable. -/
def SeparableAt (run : Repetition newMessageId cutoff ι) (n : Nat) : Prop :=
  ∀ id ∈ compactionCandidates (run.conversation n) cutoff, ∀ pair summary,
    summarizablePair (run.conversation n) [] id = some pair →
      summarizeToolCall (run.summarize n) (run.conversation n) id = some summary →
        Separable (run.conversation n) pair summary

/-- Too many calls are left, and none that is tried has a pair. -/
def StuckAt (run : Repetition newMessageId cutoff ι) (n : Nat) : Prop :=
  cutoff + toolcallSummarizationBatchSize < callsBeforeTurn (run.conversation n) ∧
    ∀ id ∈ compactionCandidates (run.conversation n) cutoff,
      summarizablePair (run.conversation n) [] id = none ∨
        agentVisibleToolPair (run.conversation n) id = none

/-- Every repetition hides only what it summarizes, and at last few calls are left. -/
def CompactsCleanly (run : Repetition newMessageId cutoff ι) : Prop :=
  (∀ n, ∃ hidden summarized stored, HidesSummarized (run.summarize n) (run.conversation n)
    (run.conversation (n + 1)) hidden summarized stored) ∧
  (run.Succeeds → ∃ n,
    callsBeforeTurn (run.conversation n) ≤ cutoff + toolcallSummarizationBatchSize)

end Repetition

/-! ## The loop over the candidates -/

section Loop

variable {newMessageId : Nat → String} {cutoff : Nat}
  {summarize : String → List (Message ι) → Option (List (MessageContent ι))} {session : Session ι}

variable {hidden summarized : List String} {message : Message ι} {changed : Session ι}
  {stored pair turn : List (Message ι)} {done : List (StateEffect ι) × List String}

open Message (id_hideAmong isAmong_append isAmong_iff)

/-- A message whose id is its own joins the hidden ones. -/
theorem map_hideAmong_concat {messages : List (Message ι)} {id : String}
    (isId : message.id = some id)
    (own : ∀ other ∈ messages, other.id = message.id → other = message) :
    (messages.map (Message.hideAmong hidden)).map (fun other =>
        if other.id = some id then other.withVisibility message.metadata.userVisible false
        else other) =
      messages.map (Message.hideAmong (hidden ++ [id])) := by
  rw [map_map]
  apply map_congr_left
  intro other isOther
  rw [Function.comp_apply, id_hideAmong]
  split
  · next isSame =>
    obtain rfl := own other isOther (isSame.trans isId.symm)
    have isLast : other.isAmong (hidden ++ [id]) = true :=
      isAmong_iff.mpr ⟨id, by simp, isId⟩
    rw [Message.hideAmong, Message.hideAmong]
    split <;> rfl
  · next isOther =>
    have notLast : other.isAmong [id] = false := by
      rw [Bool.eq_false_iff, Ne, isAmong_iff]
      simpa using isOther
    rw [Message.hideAmong, Message.hideAmong, isAmong_append, notLast, Bool.or_false]

/-- Hiding a message whose id is its own, behind which summaries have been stored. -/
theorem exists_hideMessage (freshIds : FreshIds newMessageId session) {id : String}
    (isConversation : changed.conversation =
      session.conversation.map (Message.hideAmong hidden) ++ stored)
    (newIds : ∀ message ∈ stored, ∃ place, session.rows.length ≤ place ∧
      message.id = some (newMessageId place)) (isIn : message ∈ session.conversation)
    (isId : message.id = some id)
    (own : ∀ other ∈ session.conversation, other.id = message.id → other = message) :
    ∃ next, applyEffect newMessageId changed
        (.setMessageVisibility id message.metadata.userVisible false) = .ok next ∧
      next.rows.length = changed.rows.length ∧
      next.conversation =
        session.conversation.map (Message.hideAmong (hidden ++ [id])) ++ stored := by
  have notStored : ∀ other ∈ stored, other.id ≠ some id := by
    intro other isOther isSame
    obtain ⟨place, isLate, isNew⟩ := newIds other isOther
    exact freshIds place isLate message isIn (by rw [isId, ← isSame, isNew])
  have isStored : message.hideAmong hidden ∈ changed.conversation := by
    rw [isConversation]
    exact mem_append_left _ (mem_map_of_mem isIn)
  have only : ∀ other ∈ changed.conversation, other.id = some id →
      other = message.hideAmong hidden := by
    rw [isConversation]
    intro other isOther isSame
    rcases mem_append.mp isOther with isOld | isNew
    · obtain ⟨source, isSource, rfl⟩ := mem_map.mp isOld
      rw [id_hideAmong] at isSame
      rw [own source isSource (isSame.trans isId.symm)]
    · exact absurd isSame (notStored other isNew)
  obtain ⟨next, applies, sameLength, isNext⟩ :=
    exists_setMessageVisibility newMessageId changed (message.hideAmong hidden) id
      message.metadata.userVisible false isStored (by rw [id_hideAmong, isId]) only
  refine ⟨next, applies, sameLength, ?_⟩
  have sameStored : stored.map (fun other => if other.id = some id then
      other.withVisibility message.metadata.userVisible false else other) = stored := by
    apply (map_congr_left fun other isOther => ?_).trans (map_id' stored)
    rw [if_neg (notStored other isOther)]
  rw [isNext, isConversation, map_append, map_hideAmong_concat isId own, sameStored]

/-- Hiding messages whose ids are their own, behind which summaries have been stored. -/
theorem exists_hidePair (freshIds : FreshIds newMessageId session)
    (isConversation : changed.conversation =
      session.conversation.map (Message.hideAmong hidden) ++ stored)
    (newIds : ∀ message ∈ stored, ∃ place, session.rows.length ≤ place ∧
      message.id = some (newMessageId place))
    (inConversation : ∀ message ∈ pair, message ∈ session.conversation)
    (ownIds : ∀ message ∈ pair, ∀ other ∈ session.conversation,
      other.id = message.id → other = message) :
    ∃ next, applyEffects newMessageId changed (hidePair pair) = (next, none) ∧
      next.rows.length = changed.rows.length ∧
      next.conversation =
        session.conversation.map (Message.hideAmong (hidden ++ pair.filterMap Message.id)) ++
          stored := by
  induction pair generalizing changed hidden with
  | nil => exact ⟨changed, rfl, rfl, by simpa using isConversation⟩
  | cons message rest ih =>
    have restIn := fun other isIn => inConversation other (mem_cons_of_mem message isIn)
    have restOwn := fun other isIn => ownIds other (mem_cons_of_mem message isIn)
    cases isId : message.id with
    | none =>
      obtain ⟨next, applies, sameLength, isNext⟩ := ih isConversation restIn restOwn
      refine ⟨next, ?_, sameLength, ?_⟩
      · rw [← applies, hidePair, hidePair, filterMap_cons_none (by simp [isId])]
      · rw [isNext, filterMap_cons_none isId]
    | some id =>
      obtain ⟨next, applies, sameLength, isNext⟩ :=
        exists_hideMessage freshIds isConversation newIds (inConversation message (.head _))
          isId (ownIds message (.head _))
      obtain ⟨last, appliesRest, restLength, isLast⟩ := ih isNext restIn restOwn
      refine ⟨last, ?_, restLength.trans sameLength, ?_⟩
      · rw [hidePair, filterMap_cons_some (by rw [isId]; rfl), applyEffects, applies]
        exact appliesRest
      · rw [isLast, filterMap_cons_some isId, append_assoc]
        rfl

variable (newMessageId summarize session)

/-- The call has been summarized, and the messages of its pair are among the hidden ones. -/
def IsHiddenPair (hidden : List String) (id : String) (pair : List (Message ι)) : Prop :=
  summarizablePair session.conversation [] id = some pair ∧
    (∃ summary, summarizeToolCall summarize session.conversation id = some summary ∧
      Separable session.conversation pair summary) ∧
    ∀ message ∈ pair, message.isAmong hidden = true

/-- The effects and the hidden ids of the loop so far, once they are applied. -/
structure Account (done : List (StateEffect ι) × List String) (summarized : List String)
    (stored : List (Message ι)) (changed : Session ι) : Prop where
  applies : applyEffects newMessageId session done.1 = (changed, none)
  conversation : changed.conversation =
    session.conversation.map (Message.hideAmong done.2) ++ stored
  grows : session.rows.length ≤ changed.rows.length
  newIds : ∀ message ∈ stored, ∃ place, session.rows.length ≤ place ∧
    message.id = some (newMessageId place)
  summaries : List.Forall₂ (IsSummary summarize session.conversation) summarized stored
  noExchange : ∀ message ∈ stored, message.requestIds = [] ∧ message.responseIds = [] ∧
    isKickoff message = false
  pairs : ∀ id ∈ summarized, ∃ pair, IsHiddenPair summarize session done.2 id pair
  isPaired : ∀ message ∈ session.conversation, message.isAmong done.2 = true →
    ∃ id ∈ summarized, ∃ pair, IsHiddenPair summarize session done.2 id pair ∧ message ∈ pair
  coveredOnce : ∀ message ∈ session.conversation, message.isAmong done.2 = true →
    summarized.countP (fun id => message.hasToolId id) = 1
  untouched : summarized = [] → done = ([], [])

variable {newMessageId summarize session}

theorem account_nil : Account newMessageId summarize session ([], []) [] [] session where
  applies := rfl
  conversation := by
    rw [append_nil]
    refine (map_congr_left (g := fun message => message) fun message _ => ?_).trans
      (map_id' _) |>.symm
    rw [Message.hideAmong]
    cases isId : message.id <;> simp [Message.isAmong, isId]
  grows := le_rfl
  newIds := by simp
  summaries := .nil
  noExchange := by simp
  pairs := by simp
  isPaired message _ isAmong := by
    obtain ⟨id, isIn, -⟩ := isAmong_iff.mp isAmong
    cases isIn
  coveredOnce message _ isAmong := by
    obtain ⟨id, isIn, -⟩ := isAmong_iff.mp isAmong
    cases isIn
  untouched _ := rfl

theorem IsHiddenPair.mono {later : List String} {id : String}
    (isHidden : IsHiddenPair summarize session hidden id pair) :
    IsHiddenPair summarize session (hidden ++ later) id pair := by
  refine ⟨isHidden.1, isHidden.2.1, fun message isIn => ?_⟩
  rw [isAmong_append, isHidden.2.2 message isIn, Bool.true_or]

/-- A message that no pair so far has hidden carries no call that is summarized. -/
theorem Account.countP_eq_zero
    (account : Account newMessageId summarize session done summarized stored changed)
    (isIn : message ∈ session.conversation) (hasId : message.id.isSome)
    (notHidden : message.isAmong done.2 = false) :
    summarized.countP (fun id => message.hasToolId id) = 0 := by
  rw [List.countP_eq_zero]
  intro id isSummarized hasCall
  obtain ⟨pair, isPair, -, areHidden⟩ := account.pairs id isSummarized
  have isHidden := areHidden message ((mem_pair_iff isPair).mpr ⟨isIn, hasId, hasCall⟩)
  exact Bool.false_ne_true (notHidden.symm.trans isHidden)

/-- A pair that is found next to hidden messages is found without them. -/
theorem summarizablePair_nil {conversation : List (Message ι)} {id : String}
    (isPair : summarizablePair conversation hidden id = some pair) :
    summarizablePair conversation [] id = some pair := by
  obtain ⟨isFound, isTwo, -, sameIds⟩ := summarizablePair_eq_some_iff.mp isPair
  refine summarizablePair_eq_some_iff.mpr ⟨isFound, isTwo, fun message _ => ?_, sameIds⟩
  cases isId : message.id <;> simp [Message.isAmong, isId]

/-- A pair is hidden and its summary is appended. -/
theorem Account.push (freshIds : FreshIds newMessageId session) {id : String} {summary : Message ι}
    (account : Account newMessageId summarize session done summarized stored changed)
    (isPair : summarizablePair session.conversation done.2 id = some pair)
    (isSummary : summarizeToolCall summarize session.conversation id = some summary)
    (separable : Separable session.conversation pair summary) :
    ∃ last next, Account newMessageId summarize session
      (done.1 ++ hidePair pair ++ [.appendMessage summary], done.2 ++ pair.filterMap Message.id)
      (summarized ++ [id]) (stored ++ [last]) next := by
  obtain ⟨halfway, appliesHalf, halfLength, isHalfway⟩ :=
    exists_hidePair freshIds account.conversation account.newIds
      (fun message isIn => ((mem_pair_iff isPair).mp isIn).1) separable.ownIds
  obtain ⟨last, isStored, hasId, isLast⟩ := exists_addMessage newMessageId summary halfway.rows
  have noId : summary.id = none ∧ summary.metadata = .agentOnly := by
    simp only [summarizeToolCall, Option.bind_eq_bind, Option.bind_eq_some_iff,
      Option.pure_def, Option.some.injEq] at isSummary
    obtain ⟨-, -, -, -, -, -, rfl⟩ := isSummary
    exact ⟨rfl, rfl⟩
  have isPairNil := summarizablePair_nil isPair
  have notHidden := (summarizablePair_eq_some_iff.mp isPair).2.2.1
  have areHidden : ∀ message ∈ pair,
      message.isAmong (done.2 ++ pair.filterMap Message.id) = true := by
    intro message isIn
    obtain ⟨own, isOwn⟩ := Option.isSome_iff_exists.mp ((mem_pair_iff isPair).mp isIn).2.1
    exact isAmong_iff.mpr
      ⟨own, mem_append_right _ (mem_filterMap.mpr ⟨message, isIn, isOwn⟩), isOwn⟩
  have isNewPair : IsHiddenPair summarize session (done.2 ++ pair.filterMap Message.id) id pair :=
    ⟨isPairNil, ⟨summary, isSummary, separable⟩, areHidden⟩
  have inPair : ∀ message ∈ session.conversation, message.isAmong done.2 = false →
      message.isAmong (done.2 ++ pair.filterMap Message.id) = true → message ∈ pair := by
    intro message isIn isNew isAmong
    rw [isAmong_append, isNew] at isAmong
    obtain ⟨own, isOwn, hasOwn⟩ := isAmong_iff.mp isAmong
    obtain ⟨other, isOther, isId⟩ := mem_filterMap.mp isOwn
    rwa [separable.ownIds other isOther message isIn (hasOwn.trans isId.symm)]
  refine ⟨last, { halfway with rows := addMessage newMessageId summary halfway.rows }, ?_⟩
  constructor
  case applies =>
    rw [append_assoc, applyEffects_append _ account.applies, applyEffects_append _ appliesHalf]
    rfl
  case conversation =>
    rw [Session.conversation, isLast, ← append_assoc, ← isHalfway, Session.conversation]
  case grows =>
    dsimp only [addMessage]
    rw [length_append, halfLength]
    exact account.grows.trans (Nat.le_add_right _ _)
  case newIds =>
    refine forall_mem_append.mpr ⟨account.newIds, forall_mem_singleton.mpr ?_⟩
    exact ⟨halfway.rows.length, halfLength ▸ account.grows, by rw [hasId, noId.1]; rfl⟩
  case summaries =>
    exact rel_append account.summaries (.cons ⟨summary, isSummary, isStored⟩ .nil)
  case noExchange =>
    refine forall_mem_append.mpr ⟨account.noExchange, forall_mem_singleton.mpr ?_⟩
    refine ⟨?_, ?_, ?_⟩
    · rw [Message.requestIds, isStored.toolRequests, separable.noRequest]
      rfl
    · rw [Message.responseIds, isStored.toolResponses, separable.noResponse]
      rfl
    · rw [isKickoff, isStored.2.2, noId.2]
      simp [MessageMetadata.agentOnly]
  case pairs =>
    refine forall_mem_append.mpr ⟨fun other isOther => ?_, forall_mem_singleton.mpr ?_⟩
    · obtain ⟨otherPair, isOtherPair⟩ := account.pairs other isOther
      exact ⟨otherPair, isOtherPair.mono⟩
    · exact ⟨pair, isNewPair⟩
  case isPaired =>
    intro message isIn isAmong
    cases isOld : message.isAmong done.2 with
    | true =>
      obtain ⟨other, isOther, otherPair, isOtherPair, inOther⟩ :=
        account.isPaired message isIn isOld
      exact ⟨other, mem_append_left _ isOther, otherPair, isOtherPair.mono, inOther⟩
    | false =>
      exact ⟨id, by simp, pair, isNewPair, inPair message isIn isOld isAmong⟩
  case coveredOnce =>
    intro message isIn isAmong
    rw [countP_append, countP_singleton]
    cases isOld : message.isAmong done.2 with
    | true =>
      have hasId : message.id.isSome := by
        obtain ⟨own, -, isOwn⟩ := isAmong_iff.mp isOld
        rw [isOwn]
        rfl
      -- A message that is hidden already is in no pair that is found later.
      have notCarried : ¬message.hasToolId id := fun hasCall =>
        Bool.false_ne_true
          ((notHidden message ((mem_pair_iff isPair).mpr ⟨isIn, hasId, hasCall⟩)).symm.trans isOld)
      rw [account.coveredOnce message isIn isOld, if_neg notCarried]
    | false =>
      obtain ⟨-, hasId, hasCall⟩ := (mem_pair_iff isPair).mp (inPair message isIn isOld isAmong)
      rw [account.countP_eq_zero isIn hasId isOld, if_pos hasCall]
  case untouched =>
    intro isEmpty
    cases summarized <;> cases isEmpty

/-- The body of the loop. -/
theorem Account.summarizePair (freshIds : FreshIds newMessageId session) {id : String}
    (account : Account newMessageId summarize session done summarized stored changed)
    (separable : ∀ pair summary, summarizablePair session.conversation [] id = some pair →
      summarizeToolCall summarize session.conversation id = some summary →
        Separable session.conversation pair summary) :
    ∃ summarized' stored' changed', Account newMessageId summarize session
      (Agent.summarizePair summarize session.conversation done id) summarized' stored' changed' ∧
      (summarized' = [] → summarized = [] ∧
        (summarizablePair session.conversation [] id = none ∨
          summarizeToolCall summarize session.conversation id = none)) := by
  rw [Agent.summarizePair]
  cases isPair : summarizablePair session.conversation done.2 id with
  | none =>
    refine ⟨summarized, stored, changed, account, fun isEmpty => ⟨isEmpty, .inl ?_⟩⟩
    rwa [account.untouched isEmpty] at isPair
  | some pair =>
    cases isSummary : summarizeToolCall summarize session.conversation id with
    | none => exact ⟨summarized, stored, changed, account, fun isEmpty => ⟨isEmpty, .inr rfl⟩⟩
    | some summary =>
      obtain ⟨last, next, pushed⟩ := account.push freshIds isPair isSummary
        (separable pair summary (summarizablePair_nil isPair) isSummary)
      refine ⟨summarized ++ [id], stored ++ [last], next, pushed, fun isEmpty => ?_⟩
      cases summarized <;> cases isEmpty

/-- The loop over ids whose pairs are separable. -/
theorem Account.foldl (freshIds : FreshIds newMessageId session) {ids : List String}
    (account : Account newMessageId summarize session done summarized stored changed)
    (separable : ∀ id ∈ ids, ∀ pair summary,
      summarizablePair session.conversation [] id = some pair →
        summarizeToolCall summarize session.conversation id = some summary →
          Separable session.conversation pair summary) :
    ∃ summarized' stored' changed', Account newMessageId summarize session
      (ids.foldl (Agent.summarizePair summarize session.conversation) done)
      summarized' stored' changed' ∧
      (summarized' = [] → summarized = [] ∧ ∀ id ∈ ids,
        summarizablePair session.conversation [] id = none ∨
          summarizeToolCall summarize session.conversation id = none) := by
  induction ids generalizing done summarized stored changed with
  | nil => exact ⟨summarized, stored, changed, account, fun isEmpty => ⟨isEmpty, by simp⟩⟩
  | cons id rest ih =>
    obtain ⟨middle, storedMiddle, changedMiddle, isMiddle, middleEmpty⟩ :=
      account.summarizePair freshIds (separable id (.head _))
    obtain ⟨all, storedAll, changedAll, isAll, allEmpty⟩ :=
      ih isMiddle fun other isIn => separable other (.tail _ isIn)
    refine ⟨all, storedAll, changedAll, isAll, fun isEmpty => ?_⟩
    obtain ⟨isMiddleEmpty, restFails⟩ := allEmpty isEmpty
    obtain ⟨isStart, fails⟩ := middleEmpty isMiddleEmpty
    exact ⟨isStart, forall_mem_cons.mpr ⟨fails, restFails⟩⟩

section

variable (account : Account newMessageId summarize session done summarized stored changed)
include account

/-- What the loop leaves behind when its effects are applied. -/
theorem Account.hidesSummarized :
    HidesSummarized summarize session.conversation changed.conversation done.2 summarized
      stored where
  kept := account.conversation
  summaries := account.summaries
  coveredOnce := account.coveredOnce
  turnKept := by
    intro turn isTurn message isIn
    rw [Bool.eq_false_iff]
    intro isHidden
    obtain ⟨id, -, pair, ⟨-, ⟨summary, -, separable⟩, -⟩, inPair⟩ :=
      account.isPaired message ((suffix_of_fromKickoff isTurn).subset isIn) isHidden
    exact separable.early turn isTurn message inPair isIn
  seenTogether := by
    intro id seen request isRequest asks response isResponse answers
    -- A hidden carrier of the call hides every carrier of it.
    have hides : ∀ first ∈ session.conversation, first.hasToolId id = true →
        first.isAmong done.2 = true →
        ∀ second ∈ session.conversation, second.hasToolId id = true →
          second.metadata.agentVisible = true → second.isAmong done.2 = true := by
      intro first isFirst firstHas firstHidden second isSecond secondHas isVisible
      obtain ⟨other, -, pair, ⟨isPair, ⟨summary, -, separable⟩, areHidden⟩, inPair⟩ :=
        account.isPaired first isFirst firstHidden
      have inRequests : id ∈ pair.flatMap Message.requestIds := by
        obtain isAsked | isAnswered := Message.hasToolId_iff.mp firstHas
        · exact mem_flatMap.mpr ⟨first, inPair, isAsked⟩
        · exact (summarizablePair_eq_some_iff.mp isPair).2.2.2.2
            (mem_flatMap.mpr ⟨first, inPair, isAnswered⟩)
      obtain ⟨owner, isOwner, isAsked⟩ := mem_flatMap.mp inRequests
      exact areHidden second
        (separable.ownCalls owner isOwner id isAsked second isSecond isVisible secondHas)
    rw [account.conversation] at isRequest isResponse
    obtain isRequest | isNew := mem_append.mp isRequest
    · obtain isResponse | isNew := mem_append.mp isResponse
      · obtain ⟨first, isFirst, rfl⟩ := mem_map.mp isRequest
        obtain ⟨second, isSecond, rfl⟩ := mem_map.mp isResponse
        rw [Message.requestIds_hideAmong] at asks
        rw [Message.responseIds_hideAmong] at answers
        have same := seen first isFirst asks second isSecond answers
        have firstHas := Message.hasToolId_iff.mpr (.inl asks)
        have secondHas := Message.hasToolId_iff.mpr (.inr answers)
        rw [Message.agentVisible_hideAmong, Message.agentVisible_hideAmong, same]
        cases isVisible : second.metadata.agentVisible with
        | false => rfl
        | true =>
          rw [Bool.true_and, Bool.true_and, Bool.not_inj_iff, Bool.eq_iff_iff]
          exact ⟨fun isHidden =>
              hides first isFirst firstHas isHidden second isSecond secondHas isVisible,
            fun isHidden => hides second isSecond secondHas isHidden first isFirst firstHas
              (same.trans isVisible)⟩
      · rw [(account.noExchange response isNew).2.1] at answers
        cases answers
    · rw [(account.noExchange request isNew).1] at asks
      cases asks

/-- The messages before the turn stay before it, hidden or not. -/
theorem Account.beforeKickoff_eq (isTurn : fromKickoff session.conversation = some turn) :
    beforeKickoff changed.conversation =
      (beforeKickoff session.conversation).map (Message.hideAmong done.2) := by
  obtain ⟨before, isSplit⟩ := suffix_of_fromKickoff isTurn
  have noNew : fromKickoff stored = none :=
    fromKickoff_eq_none fun message isIn => (account.noExchange message isIn).2.2
  have isNext : fromKickoff changed.conversation =
      some (turn.map (Message.hideAmong done.2) ++ stored) := by
    rw [account.conversation, fromKickoff_append, noNew,
      fromKickoff_map (isKickoff_hideAmong done.2), isTurn]
    rfl
  rw [account.conversation, ← isSplit] at isNext
  rw [account.conversation, ← isSplit, map_append, append_assoc,
    beforeKickoff_append (by rwa [map_append, append_assoc] at isNext),
    beforeKickoff_append (isSplit ▸ isTurn)]

theorem Account.calls_le (isTurn : fromKickoff session.conversation = some turn) :
    callsBeforeTurn changed.conversation ≤ callsBeforeTurn session.conversation := by
  rw [callsBeforeTurn, account.beforeKickoff_eq isTurn, map_map]
  exact sum_le_sum fun message _ => visibleCalls_hideAmong_le done.2 message

/-- A summarized call is one call less before the turn. -/
theorem Account.calls_lt (isTurn : fromKickoff session.conversation = some turn)
    (notEmpty : summarized ≠ []) :
    callsBeforeTurn changed.conversation < callsBeforeTurn session.conversation := by
  rw [callsBeforeTurn, account.beforeKickoff_eq isTurn, map_map]
  refine sum_lt_sum _ _ (fun message _ => visibleCalls_hideAmong_le done.2 message) ?_
  obtain ⟨id, isIn⟩ := exists_mem_of_ne_nil summarized notEmpty
  obtain ⟨pair, isPair, ⟨summary, isSummary, separable⟩, areHidden⟩ := account.pairs id isIn
  simp only [summarizeToolCall, Option.bind_eq_bind, Option.bind_eq_some_iff] at isSummary
  obtain ⟨messages, isVisiblePair, -⟩ := isSummary
  obtain ⟨message, inConversation, isVisible, isAsked⟩ :=
    exists_visible_of_agentVisibleToolPair isVisiblePair
  obtain ⟨owner, isOwner, ownerAsks⟩ := exists_request_of_pair isPair
  have inPair := separable.ownCalls owner isOwner id ownerAsks message inConversation isVisible
    (Message.hasToolId_iff.mpr (.inl isAsked))
  refine ⟨message, ?_, ?_⟩
  · rw [← append_fromKickoff isTurn] at inConversation
    exact (mem_append.mp inConversation).resolve_right (separable.early turn isTurn _ inPair)
  · have isPositive : 0 < message.toolRequests.length := by
      rw [← length_map (f := ToolRequest.id)]
      exact length_pos_of_mem isAsked
    rw [Function.comp_apply, Message.visibleCalls, Message.visibleCalls,
      Message.agentVisible_hideAmong, areHidden message inPair, isVisible]
    exact isPositive

end

end Loop

end Obelus.Agent
