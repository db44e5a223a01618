import Obelus.Agent.StateMachine

/-!
# Effects on a turn

Most operations append messages to the turn that start no other turn.  The others replace the
conversation, hide messages or append a message that the user sees as a prompt.
-/

namespace Obelus.Agent

open List
open Obelus.Conversation (Role)
open Data (bind_eq_ok_iff)

variable {ι σ : Type}

/-! ## Messages that start no turn -/

variable {message : Message ι}

theorem isKickoff_of_assistant (isRole : message.role = .assistant) :
    isKickoff message = false := by
  simp [isKickoff, isRole]

theorem isKickoff_of_hidden (isHidden : message.metadata.userVisible = false) :
    isKickoff message = false := by
  simp [isKickoff, isHidden]

theorem isKickoff_of_toolResponse (isResponse : message.isToolResponse = true) :
    isKickoff message = false := by
  simp [isKickoff, isResponse]

theorem isToolResponse_addToolResponse (id : String)
    (result : Except String (CallToolResult ι)) (metadata : Option (List (String × ι)))
    (message : Message ι) : (message.addToolResponse id result metadata).isToolResponse = true := by
  simp [Message.addToolResponse, Message.withContent, Message.isToolResponse,
    MessageContent.isToolResponse]

/-- A message that answers some request is a tool response. -/
theorem isToolResponse_answerAll {α : Type} {host : MessageHost}
    {answer : α → Message ι → Message ι}
    (answers : ∀ entry message, (answer entry message).isToolResponse = true) {pending : List α}
    (notEmpty : pending.isEmpty = false) :
    (answerAll host answer pending).isToolResponse = true := by
  obtain ⟨front, last, rfl⟩ :=
    (eq_nil_or_concat pending).resolve_left fun isNil => by simp [isNil] at notEmpty
  rw [answerAll, concat_eq_append, foldl_append]
  exact answers _ _

/-! ## Gentle effects -/

/-- The effect appends no kickoff, and neither replaces the conversation nor shows or hides a
message. -/
def StateEffect.isGentle : StateEffect ι → Bool
  | .appendMessage message => !isKickoff message
  | .replaceConversation _ _ => false
  | .setMessageVisibility _ _ _ => false
  | _ => true

def IsGentle (effects : List (StateEffect ι)) : Prop :=
  ∀ effect ∈ effects, effect.isGentle = true

theorem isGentle_nil : IsGentle ([] : List (StateEffect ι)) :=
  fun _ isIn => nomatch isIn

theorem IsGentle.append {first second : List (StateEffect ι)} (isFirst : IsGentle first)
    (isSecond : IsGentle second) : IsGentle (first ++ second) :=
  forall_mem_append.mpr ⟨isFirst, isSecond⟩

theorem isGentle_appendMessage (noKickoff : isKickoff message = false) :
    IsGentle [.appendMessage message] :=
  forall_mem_singleton.mpr (by simp [StateEffect.isGentle, noKickoff])

theorem isGentle_map_appendMessage {messages : List (Message ι)}
    (noKickoff : ∀ message ∈ messages, isKickoff message = false) :
    IsGentle (messages.map .appendMessage) := by
  intro effect isIn
  obtain ⟨message, isMessage, rfl⟩ := mem_map.mp isIn
  simp [StateEffect.isGentle, noKickoff message isMessage]

/-! ## The operations before inference -/

section Operations

variable {host : MessageHost} {conversation : List (Message ι)} {result : OperationResult ι}

theorem isGentle_maxTurns {maxTurns : Nat}
    (runs : (maxTurnsOperation host maxTurns).run conversation = .ok result) :
    IsGentle (effectsOf result) := by
  obtain ⟨turn, -, runs⟩ := bind_eq_ok_iff.mp runs
  split at runs
  · cases runs
    exact isGentle_nil
  · cases runs
    exact isGentle_appendMessage (isKickoff_of_assistant rfl)

theorem isGentle_bangShell {callId : String} {arguments : String → ι}
    (runs : (bangShellOperation host callId arguments).run conversation = .ok result) :
    IsGentle (effectsOf result) := by
  obtain ⟨turn, -, runs⟩ := bind_eq_ok_iff.mp runs
  split at runs
  · cases runs
    exact isGentle_nil
  · split at runs
    · cases runs
      exact isGentle_nil
    · split at runs
      · cases runs
        exact isGentle_appendMessage (isKickoff_of_assistant rfl)
      · cases runs
        split <;> exact isGentle_nil

theorem isGentle_toolApproval {gooseMode : GooseMode}
    {inspect : List (ToolRequest ι) → List (Message ι) → Except String (List InspectionResult)}
    (runs : (toolApprovalOperation host gooseMode inspect).run conversation = .ok result) :
    IsGentle (effectsOf result) := by
  have confirmations : ∀ messages : List (Message ι), IsGentle (confirmationEffects messages) := by
    intro messages effect isIn
    obtain ⟨pending, -, isEffect⟩ := mem_filterMap.mp isIn
    split at isEffect
    · cases isEffect
    · cases isEffect
      rfl
  have inspections : ∀ results (checked : PermissionCheckResult ι),
      IsGentle (inspectionEffects host results checked) := by
    intro results checked effect isIn
    obtain isDenied | isAsked := mem_append.mp isIn
    · obtain ⟨request, -, rfl⟩ := mem_map.mp isDenied
      rfl
    · obtain ⟨request, -, isAsked⟩ := mem_flatMap.mp isAsked
      obtain rfl | isAsked := mem_cons.mp isAsked
      · rfl
      · obtain ⟨message, isMessage, rfl⟩ := mem_map.mp isAsked
        rw [Option.mem_toList, askApproval] at isMessage
        split at isMessage
        · cases isMessage
          exact isGentle_appendMessage (isKickoff_of_assistant rfl) _ (.head _)
        · cases isMessage
  rw [toolApprovalOperation] at runs
  dsimp only at runs
  split at runs
  · cases runs
    exact isGentle_nil
  · obtain ⟨turn, -, runs⟩ := bind_eq_ok_iff.mp runs
    have both : ∀ inspected, IsGentle inspected →
        IsGentle (effectsOf (if confirmationEffects turn ++ inspected = [] then none
          else applied (confirmationEffects turn ++ inspected))) := by
      intro inspected areGentle
      split
      · exact isGentle_nil
      · exact (confirmations turn).append areGentle
    split at runs
    · cases runs
      exact both [] isGentle_nil
    · obtain ⟨results, -, runs⟩ := bind_eq_ok_iff.mp runs
      cases runs
      exact both _ (inspections _ _)

/-- The response of an operation that answers requests. -/
theorem isGentle_answerAll {α : Type} {answer : α → Message ι → Message ι}
    (answers : ∀ entry message, (answer entry message).isToolResponse = true) {pending : List α}
    (notEmpty : pending.isEmpty = false) :
    IsGentle [.appendMessage (answerAll host answer pending)] :=
  isGentle_appendMessage (isKickoff_of_toolResponse (isToolResponse_answerAll answers notEmpty))

theorem isGentle_skill {settings : SkillSettings ι}
    (runs : (skillOperation host settings).run conversation = .ok result) :
    IsGentle (effectsOf result) := by
  obtain ⟨turn, -, runs⟩ := bind_eq_ok_iff.mp runs
  dsimp only at runs
  split at runs
  · cases runs
    exact isGentle_nil
  · next notEmpty =>
    cases runs
    exact isGentle_answerAll (fun _ _ => isToolResponse_addToolResponse _ _ _ _)
      (Bool.eq_false_iff.mpr notEmpty)

theorem isGentle_unknownTool {mark : ι}
    (runs : (unknownToolOperation host mark).run conversation = .ok result) :
    IsGentle (effectsOf result) := by
  obtain ⟨turn, -, runs⟩ := bind_eq_ok_iff.mp runs
  dsimp only at runs
  split at runs
  · cases runs
    exact isGentle_nil
  · next notEmpty =>
    cases runs
    refine isGentle_answerAll (fun entry message => ?_) (Bool.eq_false_iff.mpr notEmpty)
    rw [answerUnknown]
    split
    · exact isToolResponse_addToolResponse _ _ _ _
    · split <;> exact isToolResponse_addToolResponse _ _ _ _

variable {requests : List (ToolRequest ι)} {settings : ExecutionSettings ι}
  {turn : List (Message ι)} {recipe : Option (Recipe ι)} {command : SlashCommand}

/-- What arrives of running calls is appended as questions of the agent. -/
theorem isGentle_receiveItem (items : List (String × ToolStreamItem ι))
    {received : Message ι × List (StateEffect ι)} (areGentle : IsGentle received.2) :
    IsGentle (items.foldl (receiveItem host requests) received).2 := by
  induction items generalizing received with
  | nil => exact areGentle
  | cons item rest ih =>
    refine ih ?_
    rw [receiveItem]
    split
    · exact areGentle
    · exact areGentle.append (isGentle_appendMessage (isKickoff_of_assistant rfl))

theorem isToolResponse_answerInterrupted {answered : List String} {message : Message ι}
    {request : ToolRequest ι} (isAnswered : request.id ∈ answered → message.isToolResponse = true) :
    (answerInterrupted answered message request).isToolResponse = true := by
  rw [answerInterrupted]
  split
  · next isIn => exact isAnswered isIn
  · exact isToolResponse_addToolResponse _ _ _ _

/-- The response to requests is a tool response. -/
theorem isToolResponse_complete {response : Message ι} (notEmpty : requests ≠ []) :
    (requests.foldl (answerInterrupted (response.toolResponses.map ToolResponse.id))
      response).isToolResponse = true := by
  have stays : ∀ (rest : List (ToolRequest ι)) (message : Message ι),
      message.isToolResponse = true →
      (rest.foldl (answerInterrupted (response.toolResponses.map ToolResponse.id))
        message).isToolResponse = true := by
    intro rest
    induction rest with
    | nil => exact fun _ isResponse => isResponse
    | cons request rest ih =>
      exact fun message isResponse => ih _ (isToolResponse_answerInterrupted fun _ => isResponse)
  obtain ⟨first, rest, rfl⟩ := exists_cons_of_ne_nil notEmpty
  refine stays rest _ (isToolResponse_answerInterrupted fun isAnswered => ?_)
  -- A response that answers the first request holds a tool response.
  obtain ⟨answer, isAnswer, -⟩ := mem_map.mp isAnswered
  obtain ⟨block, isBlock, isResponse⟩ := mem_filterMap.mp isAnswer
  refine any_eq_true.mpr ⟨block, isBlock, ?_⟩
  cases block with
  | toolResponse other => rfl
  | _ => cases isResponse

theorem isGentle_executionEffects (notEmpty : (executionPending settings turn).isEmpty = false) :
    IsGentle (executionEffects host settings turn) := by
  refine ((isGentle_receiveItem _ isGentle_nil).append ?_).append
    (isGentle_appendMessage (isKickoff_of_toolResponse (isToolResponse_complete ?_)))
  · split
    · exact forall_mem_singleton.mpr rfl
    · exact isGentle_nil
  · intro isNil
    rw [map_eq_nil_iff] at isNil
    simp [isNil] at notEmpty

theorem isGentle_toolExecution
    (runs : (toolExecutionOperation host settings).run conversation = .ok result) :
    IsGentle (effectsOf result) := by
  obtain ⟨turn, -, runs⟩ := bind_eq_ok_iff.mp runs
  dsimp only at runs
  split at runs
  · cases runs
    exact isGentle_nil
  · next notEmpty =>
    rw [Bool.not_eq_true] at notEmpty
    split at runs
    · cases runs
      exact isGentle_answerAll (fun _ _ => isToolResponse_addToolResponse _ _ _ _) notEmpty
    · cases runs
      exact isGentle_executionEffects notEmpty

theorem isGentle_stopHook {decision : HookDecision} {blockCap : Nat}
    (runs : (stopHookOperation host decision blockCap).run conversation = .ok result) :
    IsGentle (effectsOf result) := by
  obtain ⟨turn, -, runs⟩ := bind_eq_ok_iff.mp runs
  split at runs
  · cases runs
    exact isGentle_nil
  · split at runs
    · cases runs
      exact isGentle_nil
    · cases runs
      split
      · exact isGentle_appendMessage (isKickoff_of_assistant rfl)
      · exact isGentle_appendMessage (isKickoff_of_hidden rfl)

theorem isGentle_exitOnError
    (runs : (exitOnErrorOperation (ι := ι)).run conversation = .ok result) :
    IsGentle (effectsOf result) := by
  cases runs
  split <;> exact isGentle_nil

/-- The recipe asks for its final output. -/
def recipeAsks (settings : RecipeSettings ι) (recipe : Option (Recipe ι))
    (turn : List (Message ι)) : Bool :=
  (recipe.bind Recipe.response).isSome && endsTurn turn && (pendingFinalOutput turn).isNone &&
    (successfulFinalOutput settings turn).isNone

/-- A recipe that does not ask for its final output starts no turn. -/
theorem isGentle_recipe {settings : RecipeSettings ι}
    (isTurn : fromKickoff conversation = some turn)
    (notAsking : recipeAsks settings recipe turn = false)
    (runs : (recipeOperation host settings recipe).run conversation = .ok result) :
    IsGentle (effectsOf result) := by
  rw [recipeOperation] at runs
  split at runs
  · cases runs
    exact isGentle_nil
  · next schema isSchema =>
    obtain ⟨-, -, runs⟩ := bind_eq_ok_iff.mp runs
    obtain ⟨other, isKickoff, runs⟩ := bind_eq_ok_iff.mp runs
    obtain rfl : other = turn :=
      Option.some.inj ((fromKickoff_of_messagesSinceKickoff isKickoff).symm.trans isTurn)
    split at runs
    · cases runs
      exact isGentle_appendMessage
        (isKickoff_of_toolResponse (isToolResponse_addToolResponse _ _ _ _))
    · next noPending =>
      split at runs
      · obtain ⟨role, -, runs⟩ := bind_eq_ok_iff.mp runs
        cases runs
        split
        · exact isGentle_appendMessage (isKickoff_of_assistant rfl)
        · exact isGentle_nil
      · next noOutput =>
        cases runs
        split
        · next isEnd =>
          simp [recipeAsks, isSchema, isEnd, noPending, noOutput] at notAsking
        · exact isGentle_nil

/-- A retry resets the conversation when attempts are left, and appends messages otherwise. -/
theorem retryOperation_cases {settings : RetrySettings ι}
    (runs : (retryOperation host settings recipe).run conversation = .ok result) :
    IsGentle (effectsOf result) ∨ ∃ turn config, fromKickoff conversation = some turn ∧
      recipe.bind Recipe.retry = some config ∧ retryAttempts turn < config.maxRetries ∧
      effectsOf result = [.replaceConversation (nextAttempt conversation turn) none] := by
  obtain ⟨turn, isKickoff, runs⟩ := bind_eq_ok_iff.mp runs
  have isTurn := fromKickoff_of_messagesSinceKickoff isKickoff
  split at runs
  · cases runs
    exact .inl isGentle_nil
  · split at runs
    · cases runs
      exact .inl (isGentle_appendMessage (isKickoff_of_hidden rfl))
    · cases runs
      exact .inl (isGentle_appendMessage (isKickoff_of_hidden rfl))
    · split at runs
      · next config isConfig =>
        cases runs
        have failed : ∀ error : String,
            IsGentle [.appendMessage (retryError host error : Message ι)] :=
          fun error => isGentle_appendMessage (isKickoff_of_assistant rfl)
        rw [retryRecipe]
        dsimp only
        split
        · exact .inl (failed _)
        · exact .inl isGentle_nil
        · split
          · exact .inl (isGentle_appendMessage (isKickoff_of_assistant rfl))
          · next attemptsLeft =>
            split
            · exact .inl (failed _)
            · exact .inr ⟨turn, config, isTurn, isConfig, not_le.mp attemptsLeft, rfl⟩
      · cases runs
        exact .inl isGentle_nil

/-! ## Commands -/

/-- The effects of a command: the kickoff may be hidden before messages are appended. -/
def AnswersCommand (conversation : List (Message ι)) (effects : List (StateEffect ι)) : Prop :=
  IsGentle effects ∨ ∃ kickoff id rest, commandMessage conversation = .ok (kickoff, id) ∧
    effects = hideCommand id :: rest ∧ IsGentle rest

theorem answersCommand_commandResponse {text : String}
    (answers : commandResponse host text conversation = .ok result) :
    AnswersCommand conversation (effectsOf result) := by
  obtain ⟨command, isCommand, answers⟩ := bind_eq_ok_iff.mp answers
  cases answers
  exact .inr ⟨_, _, _, isCommand, rfl, isGentle_appendMessage (isKickoff_of_assistant rfl)⟩

theorem answersCommand_commandTurn {prompts : List (Message ι)}
    (areHidden : ∀ prompt ∈ prompts, prompt.metadata.userVisible = false)
    (answers : commandTurn prompts conversation = .ok result) :
    AnswersCommand conversation (effectsOf result) := by
  obtain ⟨command, isCommand, answers⟩ := bind_eq_ok_iff.mp answers
  cases answers
  exact .inr ⟨_, _, _, isCommand, rfl,
    isGentle_map_appendMessage fun prompt isIn => isKickoff_of_hidden (areHidden prompt isIn)⟩

theorem answersCommand_none : AnswersCommand conversation (effectsOf (none : OperationResult ι)) :=
  .inl isGentle_nil

theorem answersCommand_doctor {report : Except String (Role × String)}
    (answers : (doctorOperation host report).runCommand command conversation = .ok result) :
    AnswersCommand conversation (effectsOf result) := by
  rw [doctorOperation] at answers
  dsimp only at answers
  split at answers
  · cases answers
    exact answersCommand_none
  · split at answers
    · refine answersCommand_commandTurn (fun prompt isIn => ?_) answers
      obtain rfl := mem_singleton.mp isIn
      rfl
    · exact answersCommand_commandResponse answers
    · exact answersCommand_commandResponse answers

theorem answersCommand_skill {settings : SkillSettings ι}
    (answers : (skillOperation host settings).runCommand command conversation = .ok result) :
    AnswersCommand conversation (effectsOf result) := by
  rw [skillOperation] at answers
  dsimp only at answers
  split at answers
  · exact answersCommand_commandResponse answers
  · split at answers
    · refine answersCommand_commandTurn (fun prompt isIn => ?_) answers
      obtain rfl := mem_singleton.mp isIn
      rfl
    · cases answers
      exact answersCommand_none
    · exact answersCommand_commandResponse answers

theorem answersCommand_recipe {settings : RecipeSettings ι}
    (answers : (recipeOperation host settings recipe).runCommand command conversation =
      .ok result) : AnswersCommand conversation (effectsOf result) := by
  rw [recipeOperation] at answers
  dsimp only at answers
  split at answers
  · split at answers
    · exact answersCommand_commandResponse answers
    · obtain ⟨kickoff, isCommand, answers⟩ := bind_eq_ok_iff.mp answers
      cases answers
      refine .inr ⟨_, _, _, isCommand, rfl, forall_mem_cons.mpr ⟨rfl, ?_⟩⟩
      exact isGentle_appendMessage (isKickoff_of_hidden rfl)
  · cases answers
    exact answersCommand_none
  · exact answersCommand_commandResponse answers

theorem answersCommand_toolExecution
    (answers : (toolExecutionOperation host settings).runCommand command conversation =
      .ok result) : AnswersCommand conversation (effectsOf result) := by
  rw [toolExecutionOperation] at answers
  dsimp only at answers
  split at answers
  · cases answers
    exact answersCommand_none
  · exact answersCommand_commandResponse answers
  · split at answers
    · exact answersCommand_commandResponse answers
    · split at answers
      · exact answersCommand_commandResponse answers
      · refine answersCommand_commandTurn (fun prompt isIn => ?_) answers
        obtain ⟨entry, -, rfl⟩ := mem_map.mp isIn
        rfl

theorem answersCommand_goal {label setText clearedText : String} {current : Option String}
    (answers : goalCommand host label current setText clearedText command conversation =
      .ok result) : AnswersCommand conversation (effectsOf result) := by
  obtain ⟨kickoff, isCommand, answers⟩ := bind_eq_ok_iff.mp answers
  have answer : ∀ text : String, IsGentle [.appendMessage (commandAnswer host text : Message ι)] :=
    fun text => isGentle_appendMessage (isKickoff_of_assistant rfl)
  dsimp only at answers
  split at answers
  · cases answers
    exact .inr ⟨_, _, _, isCommand, rfl, answer _⟩
  · split at answers
    · cases answers
      exact .inr ⟨_, _, _, isCommand, rfl, answer _⟩
    · cases answers
      exact .inr ⟨_, _, _, isCommand, rfl,
        (answer _).append (isGentle_appendMessage (isKickoff_of_hidden rfl))⟩

theorem answersCommand_retry {settings : RetrySettings ι}
    (answers : (retryOperation host settings recipe).runCommand command conversation =
      .ok result) : AnswersCommand conversation (effectsOf result) := by
  rw [retryOperation] at answers
  dsimp only at answers
  split at answers
  · exact answersCommand_goal answers
  · split at answers
    · exact answersCommand_goal answers
    · cases answers
      exact answersCommand_none

theorem answersCommand_inference {settings : InferenceSettings ι}
    (answers : (inferenceOperation host settings).runCommand command conversation =
      .ok result) : AnswersCommand conversation (effectsOf result) := by
  rw [inferenceOperation] at answers
  dsimp only at answers
  split at answers
  · exact answersCommand_commandResponse answers
  · cases answers
    exact answersCommand_none

/-- Commands other than those that clear or compact the conversation. -/
theorem answersCommand_compaction {settings : CompactionSettings ι}
    {compaction : CompactionHost ι σ} (notClear : command.command ≠ "clear")
    (notCompact : command.command ≠ "compact")
    (answers : (compactionOperation host settings compaction).runCommand command conversation =
      .ok result) : AnswersCommand conversation (effectsOf result) := by
  rw [compactionOperation] at answers
  dsimp only at answers
  rw [if_neg notClear, if_neg notCompact] at answers
  cases answers
  exact answersCommand_none

/-- The handlers are asked in order. -/
theorem answersCommand_firstCommandResult {operations : List (Operation ι)}
    (answer : ∀ operation ∈ operations, ∀ result,
      operation.runCommand command conversation = .ok result →
        AnswersCommand conversation (effectsOf result))
    (answers : firstCommandResult command conversation operations = .ok result) :
    AnswersCommand conversation (effectsOf result) := by
  induction operations with
  | nil =>
    cases answers
    exact answersCommand_none
  | cons operation rest ih =>
    obtain ⟨first, isFirst, answers⟩ := bind_eq_ok_iff.mp answers
    cases first with
    | some applied =>
      cases answers
      exact answer operation (.head _) _ isFirst
    | none => exact ih (fun other isIn => answer other (.tail _ isIn)) answers

end Operations

/-! ## Inference -/

section Inference

variable {host : MessageHost} {settings : InferenceSettings ι} {conversation : List (Message ι)}
  {result : OperationResult ι}

/-- The model answers as the assistant. -/
def RepliesAsAssistant (settings : InferenceSettings ι) : Prop :=
  ∀ messages chunks, settings.stream messages = .ok chunks →
    ∀ chunk, .ok chunk ∈ chunks → ∀ message ∈ chunk.message, message.role = .assistant

def AreAssistants (messages : List (Message ι)) : Prop :=
  ∀ message ∈ messages, message.role = .assistant

variable {messages : List (Message ι)} {reply : Reply ι}

theorem areAssistants_updateLast {property : Message ι → Bool} {change : Message ι → Message ι}
    (sameRole : ∀ message, (change message).role = message.role) {updated : List (Message ι)}
    (areAssistants : AreAssistants messages)
    (updates : updateLast property change messages = some updated) : AreAssistants updated := by
  induction messages generalizing updated with
  | nil => cases updates
  | cons message rest ih =>
    obtain ⟨isAssistant, restAssistants⟩ := forall_mem_cons.mp areAssistants
    rw [updateLast] at updates
    split at updates
    · next changed isChanged =>
      cases updates
      exact forall_mem_cons.mpr ⟨isAssistant, ih restAssistants isChanged⟩
    · split at updates
      · cases updates
        exact forall_mem_cons.mpr ⟨(sameRole message).trans isAssistant, restAssistants⟩
      · cases updates

theorem areAssistants_pushMessage {named : Bool} {message : Message ι}
    (areAssistants : AreAssistants messages) (isAssistant : message.role = .assistant) :
    AreAssistants (pushMessage named messages message) := by
  have appended : ∀ last : Message ι, last.role = .assistant →
      AreAssistants (messages ++ [last]) := fun last isLast =>
    forall_mem_append.mpr ⟨areAssistants, forall_mem_singleton.mpr isLast⟩
  rw [pushMessage]
  dsimp only
  split
  · split
    · next updated isUpdated =>
      exact areAssistants_updateLast (by exact fun _ => rfl) areAssistants isUpdated
    · split
      · exact appended _ isAssistant
      · exact areAssistants
  · split
    · next last isLast =>
      have lastAssistant := areAssistants last (mem_of_getLast? isLast)
      split
      · exact forall_mem_append.mpr
          ⟨fun other isIn => areAssistants other (mem_of_mem_dropLast isIn),
            forall_mem_singleton.mpr lastAssistant⟩
      · exact appended _ isAssistant
    · exact forall_mem_singleton.mpr isAssistant

theorem areAssistants_normalizeToolCallThinking (chunk : Message ι)
    (areAssistants : AreAssistants messages) (isAssistant : chunk.role = .assistant) :
    AreAssistants (normalizeToolCallThinking messages chunk).1 ∧
      (normalizeToolCallThinking messages chunk).2.role = .assistant := by
  rw [normalizeToolCallThinking]
  split
  · exact ⟨areAssistants, isAssistant⟩
  · constructor
    · intro message isIn
      obtain ⟨source, isSource, rfl⟩ := mem_map.mp (mem_filter.mp isIn).1
      rw [stripMessage]
      split
      · exact areAssistants source isSource
      · exact areAssistants source isSource
    · dsimp only
      split <;> exact isAssistant

/-- The reply so far is the assistant's, and its effects are gentle. -/
structure GentleReply (reply : Reply ι) : Prop where
  accumulator : AreAssistants reply.accumulator
  effects : IsGentle reply.effects

theorem GentleReply.receive {chunk : StreamChunk ι} (isGentle : GentleReply reply)
    (isAssistant : ∀ message ∈ chunk.message, message.role = .assistant) :
    GentleReply (reply.receive settings chunk) := by
  have effects : IsGentle (reply.effects ++ chunk.usage.toList.map .recordUsage) := by
    refine isGentle.effects.append fun effect isIn => ?_
    obtain ⟨usage, -, rfl⟩ := mem_map.mp isIn
    rfl
  rw [Reply.receive]
  cases isMessage : chunk.message with
  | none => exact ⟨isGentle.accumulator, effects⟩
  | some message =>
    have roles := areAssistants_normalizeToolCallThinking
      { message with content := (retainNewRequests reply.toolRequestIds message.content).1 }
      isGentle.accumulator (isAssistant message isMessage)
    exact ⟨areAssistants_pushMessage roles.1 roles.2, effects⟩

theorem GentleReply.receiveAll {chunks : List (Except ProviderError (StreamChunk ι))}
    (isGentle : GentleReply reply)
    (areAssistants : ∀ chunk, .ok chunk ∈ chunks → ∀ message ∈ chunk.message,
      message.role = .assistant) : GentleReply (reply.receiveAll settings chunks).1 := by
  induction chunks generalizing reply with
  | nil => exact isGentle
  | cons chunk rest ih =>
    cases chunk with
    | error error => exact isGentle
    | ok chunk =>
      exact ih (isGentle.receive (areAssistants chunk (.head _)))
        fun other isIn => areAssistants other (.tail _ isIn)

theorem isGentle_missingUsage {missing : List (StateEffect ι)}
    (isMissing : missingUsage settings messages reply = .ok missing) : IsGentle missing := by
  rw [missingUsage] at isMissing
  split at isMissing
  · cases isMissing
    exact isGentle_nil
  · split at isMissing
    · cases isMissing
      exact isGentle_nil
    · obtain ⟨usage, -, isMissing⟩ := bind_eq_ok_iff.mp isMissing
      cases isMissing
      exact forall_mem_singleton.mpr rfl

theorem isGentle_collectReply {effects : List (StateEffect ι)}
    (repliesAsAssistant : RepliesAsAssistant settings) (areGentle : IsGentle effects)
    (collects : collectReply host settings messages effects = .ok result) :
    IsGentle (effectsOf result) := by
  have failure : ∀ error : ProviderError,
      IsGentle [.appendMessage (providerErrorMessage host settings error)] :=
    fun error => isGentle_appendMessage (isKickoff_of_assistant rfl)
  have replies : ∀ reply : Reply ι, GentleReply reply →
      IsGentle (reply.accumulator.map .appendMessage) := fun reply isGentle =>
    isGentle_map_appendMessage fun message isIn =>
      isKickoff_of_assistant (isGentle.accumulator message isIn)
  rw [collectReply] at collects
  split at collects
  · cases collects
    exact areGentle.append (failure _)
  · next chunks isStream =>
    have received : GentleReply (Reply.receiveAll settings { effects } chunks).1 :=
      GentleReply.receiveAll ⟨fun _ isIn => (not_mem_nil isIn).elim, areGentle⟩
        (repliesAsAssistant messages chunks isStream)
    split at collects
    · next reply error isReply =>
      rw [isReply] at received
      cases collects
      exact (received.effects.append (replies reply received)).append (failure _)
    · next reply isReply =>
      rw [isReply] at received
      split at collects
      · cases collects
        exact received.effects.append (isGentle_appendMessage (isKickoff_of_assistant rfl))
      · obtain ⟨missing, isMissing, collects⟩ := bind_eq_ok_iff.mp collects
        cases collects
        exact (received.effects.append (isGentle_missingUsage isMissing)).append
          (replies reply received)

/-- Inference appends replies of the assistant, and a context event that the user does not see. -/
theorem isGentle_infer (repliesAsAssistant : RepliesAsAssistant settings)
    (infers : infer host settings conversation = .ok result) : IsGentle (effectsOf result) := by
  obtain ⟨turn, -, infers⟩ := bind_eq_ok_iff.mp infers
  dsimp only at infers
  split at infers
  · cases infers
    exact isGentle_nil
  · refine isGentle_collectReply repliesAsAssistant
      (isGentle_map_appendMessage fun event isIn => isKickoff_of_hidden ?_) infers
    rw [Option.mem_toList] at isIn
    obtain ⟨text, -, isEvent⟩ := Option.map_eq_some_iff.mp (Option.filter_eq_some_iff.mp isIn).1
    rw [← isEvent]
    rfl

theorem isGentle_cancelledResponse (host : MessageHost) {unanswered : List (ToolRequest ι)}
    (notEmpty : unanswered.isEmpty = false) :
    IsGentle [.appendMessage (cancelledResponse host unanswered)] :=
  isGentle_answerAll (fun _ _ => isToolResponse_addToolResponse _ _ _ _) notEmpty

theorem isGentle_cancelInference {cancelled : OperationResult ι}
    (areGentle : IsGentle (effectsOf result))
    (cancels : cancelInference host conversation result = .ok cancelled) :
    IsGentle (effectsOf cancelled) := by
  obtain ⟨turn, -, cancels⟩ := bind_eq_ok_iff.mp cancels
  dsimp only at cancels
  split at cancels
  · cases cancels
    exact areGentle
  · next isOpen =>
    have response := isGentle_cancelledResponse host (Bool.eq_false_iff.mpr isOpen)
    cases result with
    | none =>
      cases cancels
      exact response
    | some step =>
      cases cancels
      exact areGentle.append response

end Inference

/-! ## The operation that ends a step -/

section Step

variable {conversation : List (Message ι)} {setAt index : Nat} {operation : Operation ι}

/-- The result of a step that an operation ends. -/
def Stepped.ending (setAt index : Nat) (result : StepResult ι) : Stepped ι where
  result := some
    { result with
      yieldToClient := result.yieldToClient || isCancelled setAt (2 * index + 1) }
  tried := index + 1

/-- The first of the operations that applies ends the step, or else the last step decides. -/
theorem stepFrom_cases {last : Operation ι} {operations : List (Operation ι)} {stepped : Stepped ι}
    (steps : stepFrom setAt conversation index (operations ++ [last]) = .ok stepped) :
    (∃ front operation back result, operations = front ++ operation :: back ∧
      tryOperation setAt (index + front.length) operation conversation = .ok (some result) ∧
      (∀ earlier entry, front[earlier]? = some entry →
        tryOperation setAt (index + earlier) entry conversation = .ok none) ∧
      stepped = .ending setAt (index + front.length) result) ∨
    ∃ result, tryOperation setAt (index + operations.length) last conversation = .ok result ∧
      ((result = none ∧ stepped = { result := none, tried := index + operations.length + 1 }) ∨
        ∃ applied, result = some applied ∧
          stepped = .ending setAt (index + operations.length) applied) := by
  induction operations generalizing index with
  | nil =>
    obtain ⟨result, tries, steps⟩ := bind_eq_ok_iff.mp steps
    refine .inr ⟨result, tries, ?_⟩
    cases result with
    | none =>
      cases steps
      exact .inl ⟨rfl, rfl⟩
    | some applied =>
      cases steps
      exact .inr ⟨applied, rfl, rfl⟩
  | cons operation rest ih =>
    obtain ⟨result, tries, steps⟩ := bind_eq_ok_iff.mp steps
    cases result with
    | some applied =>
      cases steps
      exact .inl ⟨[], operation, rest, applied, rfl, tries, by simp, rfl⟩
    | none =>
      obtain ⟨front, other, back, applied, isRest, otherTries, earlierTry, isStepped⟩ |
        ⟨result, tries, ends⟩ := ih steps
      · refine .inl ⟨operation :: front, other, back, applied, by rw [isRest]; rfl, ?_, ?_, ?_⟩
        · rwa [length_cons, Nat.add_comm front.length, ← Nat.add_assoc]
        · rintro (_ | earlier) entry isEntry
          · cases isEntry
            exact tries
          · rw [Nat.add_comm earlier, ← Nat.add_assoc]
            exact earlierTry earlier entry isEntry
        · rw [length_cons, Nat.add_comm front.length, ← Nat.add_assoc]
          exact isStepped
      · refine .inr ⟨result, ?_, ?_⟩
        · rwa [length_cons, Nat.add_comm rest.length, ← Nat.add_assoc]
        · rwa [length_cons, Nat.add_comm rest.length, ← Nat.add_assoc]

/-- Operations that are not told of cancellations are run unless the token is set. -/
theorem tryOperation_eq (cancels : ∀ result, operation.cancel conversation result = .ok result) :
    tryOperation setAt index operation conversation =
      if isCancelled setAt (2 * index) then .ok none else operation.run conversation := by
  rw [tryOperation]
  split <;> split
  · exact cancels none
  · rfl
  · cases operation.run conversation with
    | error error => rfl
    | ok result => exact cancels result
  · cases operation.run conversation <;> rfl

end Step

end Obelus.Agent
