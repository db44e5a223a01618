import Obelus.Agent.TurnEffects

/-!
# Retried turns

A recipe whose checks fail resets the conversation to the prompt of the turn.  The attempts are
counted on the prompt, which the steps of a steady turn leave in its place.
-/

namespace Obelus.Agent

open List

variable {ι σ : Type}

/-! ## Steps of a turn -/

/-- No operation of the step replaces or hides the conversation, or starts another turn. -/
structure Steady (settings : AgentSettings ι σ) (session : Session ι) : Prop where
  noSteer : ∀ result,
    (steerOperation settings.steerQueue).run session.conversation ≠ .ok (some result)
  noCompaction : ∀ result,
    (compactionOperation settings.host settings.compactionSettings settings.compaction).run
      session.conversation = .ok (some result) → result.effects = []
  noPairs : ∀ result,
    (toolPairCompactionOperation settings.toolPairCompactionEnabled settings.toolCallCutoff
      settings.summarize).run session.conversation ≠ .ok (some result)
  notAsking : ∀ turn, fromKickoff session.conversation = some turn →
    recipeAsks settings.recipes session.recipe turn = false
  noClearing : ∀ kickoff command, fromKickoff session.conversation = some [kickoff] →
    parseSlashCommand kickoff.asConcatText = some command →
      command.command ≠ "clear" ∧ command.command ≠ "compact"
  repliesAsAssistant : RepliesAsAssistant settings.inference

/-- The effects of a steady step: of a retry, of a command, or gentle ones. -/
inductive TurnStep (session : Session ι) (turn : List (Message ι)) : List (StateEffect ι) → Prop
  | gentle {effects : List (StateEffect ι)} (areGentle : IsGentle effects) :
      TurnStep session turn effects
  | command {kickoff : Message ι} {id : String} {rest : List (StateEffect ι)}
      (isAlone : turn = [kickoff]) (hasId : kickoff.id = some id)
      (isCommand : (parseSlashCommand kickoff.asConcatText).isSome) (areGentle : IsGentle rest) :
      TurnStep session turn (hideCommand id :: rest)
  | reset {config : RetryConfig ι} (retries : session.recipe.bind Recipe.retry = some config)
      (attemptsLeft : retryAttempts turn < config.maxRetries) :
      TurnStep session turn
        [.replaceConversation (nextAttempt session.conversation turn) none]

variable {settings : AgentSettings ι σ} {session : Session ι} {turn : List (Message ι)}

/-- A command that is no clearing one hides the kickoff and appends messages. -/
theorem Steady.slashCommand (steady : Steady settings session)
    (isTurn : fromKickoff session.conversation = some turn) {result : StepResult ι}
    (runs : (slashCommandOperation (settings.turnOperations session.recipe ++
      [settings.inferenceStep])).run session.conversation = .ok (some result)) :
    TurnStep session turn result.effects := by
  obtain ⟨other, isKickoff, runs⟩ := Data.bind_eq_ok_iff.mp runs
  obtain rfl : other = turn :=
    Option.some.inj ((fromKickoff_of_messagesSinceKickoff isKickoff).symm.trans isTurn)
  split at runs
  · next kickoff =>
    split at runs
    · next command isCommand =>
      obtain ⟨notClear, notCompact⟩ := steady.noClearing kickoff command isTurn isCommand
      have answers : AnswersCommand session.conversation (effectsOf (some result)) := by
        refine answersCommand_firstCommandResult ?_ runs
        simp only [AgentSettings.turnOperations, cons_append, nil_append, forall_mem_cons,
          not_mem_nil, false_imp_iff, implies_true, and_true]
        have quiet : ∀ result : OperationResult ι,
            (Except.ok none : Except String (OperationResult ι)) = .ok result →
              AnswersCommand session.conversation (effectsOf result) := by
          intro result isNone
          cases isNone
          exact answersCommand_none
        exact ⟨quiet, quiet, quiet,
          fun _ => answersCommand_compaction notClear notCompact, quiet, quiet,
          fun _ => answersCommand_doctor, quiet, fun _ => answersCommand_skill,
          fun _ => answersCommand_recipe, fun _ => answersCommand_toolExecution, quiet,
          fun _ => answersCommand_retry, quiet, quiet, fun _ => answersCommand_inference⟩
      obtain areGentle | ⟨first, id, rest, isFirst, isEffects, areGentle⟩ := answers
      · exact .gentle areGentle
      · have isEffects : result.effects = hideCommand id :: rest := isEffects
        obtain ⟨messages, isMessages, isFirst⟩ := Data.bind_eq_ok_iff.mp isFirst
        obtain rfl := Except.ok.inj (isMessages.symm.trans isKickoff)
        cases hasId : kickoff.id with
        | none =>
          simp only [hasId] at isFirst
          cases isFirst
        | some own =>
          simp only [hasId] at isFirst
          obtain ⟨rfl, rfl⟩ := isFirst
          rw [isEffects]
          exact .command rfl hasId (by rw [isCommand]; rfl) areGentle
    · cases runs
  · cases runs

theorem Steady.operation (steady : Steady settings session)
    (isTurn : fromKickoff session.conversation = some turn) {operation : Operation ι}
    (isIn : operation ∈ settings.operations session.recipe) {result : StepResult ι}
    (runs : operation.run session.conversation = .ok (some result)) :
    TurnStep session turn result.effects := by
  rw [AgentSettings.operations, mem_cons] at isIn
  obtain rfl | isIn := isIn
  · exact steady.slashCommand isTurn runs
  · simp only [AgentSettings.turnOperations, mem_cons, not_mem_nil, or_false] at isIn
    obtain rfl | rfl | rfl | rfl | rfl | rfl | rfl | rfl | rfl | rfl | rfl | rfl | rfl | rfl |
      rfl := isIn
    · exact absurd runs (steady.noSteer result)
    · exact .gentle (isGentle_maxTurns runs)
    · exact .gentle (isGentle_bangShell runs)
    · rw [steady.noCompaction result runs]
      exact .gentle isGentle_nil
    · exact absurd runs (steady.noPairs result)
    · exact .gentle (isGentle_toolApproval runs)
    · cases runs
    · cases runs
    · exact .gentle (isGentle_skill runs)
    · exact .gentle (isGentle_recipe isTurn (steady.notAsking turn isTurn) runs)
    · exact .gentle (isGentle_toolExecution runs)
    · exact .gentle (isGentle_unknownTool runs)
    · obtain areGentle | ⟨other, config, isOther, retries, attemptsLeft, isEffects⟩ :=
        retryOperation_cases runs
      · exact .gentle areGentle
      · obtain rfl := Option.some.inj (isOther.symm.trans isTurn)
        have isEffects : result.effects =
            [.replaceConversation (nextAttempt session.conversation other) none] := isEffects
        rw [isEffects]
        exact .reset retries attemptsLeft
    · exact .gentle (isGentle_stopHook runs)
    · exact .gentle (isGentle_exitOnError runs)

/-- What a steady step does, whenever the token is set. -/
theorem Steady.step (steady : Steady settings session)
    (isTurn : fromKickoff session.conversation = some turn) {setAt tried : Nat}
    {result : StepResult ι}
    (steps : Agent.step (settings.steps session.recipe) setAt session.conversation =
      .ok { result := some result, tried }) : TurnStep session turn result.effects := by
  obtain ⟨-, -, steps⟩ := Data.bind_eq_ok_iff.mp steps
  obtain ⟨front, operation, back, applied, isOperations, tries, -, isStepped⟩ |
    ⟨last, tries, ends⟩ := stepFrom_cases steps
  · have isIn : operation ∈ settings.operations session.recipe := by simp [isOperations]
    rw [tryOperation_eq fun result => settings.cancel_of_mem_operations _ isIn _ result] at tries
    have isResult := congrArg Stepped.result isStepped
    simp only [Stepped.ending, Option.some.injEq] at isResult
    rw [isResult]
    split at tries
    · cases tries
    · have applies := steady.operation isTurn isIn tries
      exact applies
  · have lastGentle : IsGentle (effectsOf last) := by
      have told : ∀ before time, IsGentle (effectsOf before) →
          (if isCancelled setAt time then
              settings.inferenceStep.cancel session.conversation before
            else Except.ok before) = .ok last → IsGentle (effectsOf last) := by
        intro before time beforeGentle isLast
        split at isLast
        · exact isGentle_cancelInference beforeGentle isLast
        · cases isLast
          exact beforeGentle
      simp only [tryOperation] at tries
      split at tries
      · obtain ⟨before, isBefore, tries⟩ := Data.bind_eq_ok_iff.mp tries
        cases isBefore
        exact told none _ isGentle_nil tries
      · obtain ⟨before, isBefore, tries⟩ := Data.bind_eq_ok_iff.mp tries
        exact told before _ (isGentle_infer steady.repliesAsAssistant isBefore) tries
    obtain ⟨-, isStepped⟩ | ⟨applied, rfl, isStepped⟩ := ends
    · cases congrArg Stepped.result isStepped
    · have isResult := congrArg Stepped.result isStepped
      simp only [Stepped.ending, Option.some.injEq] at isResult
      rw [isResult]
      exact .gentle lastGentle

/-! ## The place of the prompt -/

/-- The conversation in a turn that has been reset so many times: the context before the turn, the
prompt, and messages that are no prompts.  Marks of requests are left out. -/
structure TurnParts (context : List (Message ι)) (prompt : Message ι) (resets : Nat)
    (conversation : List (Message ι)) (kickoff : Message ι) (rest : List (Message ι)) : Prop where
  parts : conversation.map Message.unmarked = context ++ kickoff :: rest
  isFirst : isKickoff kickoff = true
  noKickoff : ∀ message ∈ rest, isKickoff message = false
  hasIds : ∀ message ∈ rest, message.id.isSome
  sameId : kickoff.id = prompt.id
  sameContent : kickoff.content = prompt.content
  isSeen : kickoff.metadata.agentVisible = true ∨
    (parseSlashCommand kickoff.asConcatText).isSome
  attempts : kickoff.metadata.operations.attempts.getD 0 = resets

/-- The context and the prompt with which a turn begins. -/
structure TurnStart (context : List (Message ι)) (prompt : Message ι) : Prop where
  contextIds : ∀ message ∈ context, message.id.isSome
  promptId : prompt.id.isSome
  ownId : ∀ message ∈ context, message.id ≠ prompt.id

def InTurn (context : List (Message ι)) (prompt : Message ι) (resets : Nat)
    (session : Session ι) : Prop :=
  ∃ kickoff rest, TurnParts context prompt resets session.conversation kickoff rest

section InTurn

variable {newMessageId : Nat → String} {context : List (Message ι)} {prompt : Message ι}
  {resets : Nat} {changed : Session ι}

theorem TurnParts.exists_split {conversation : List (Message ι)} {kickoff : Message ι}
    {rest : List (Message ι)}
    (inTurn : TurnParts context prompt resets conversation kickoff rest) :
    ∃ before first later, conversation = before ++ first :: later ∧
      before.map Message.unmarked = context ∧ first.unmarked = kickoff ∧
      later.map Message.unmarked = rest ∧ fromKickoff conversation = some (first :: later) := by
  obtain ⟨before, behind, rfl, isContext, isBehind⟩ := map_eq_append_iff.mp inTurn.parts
  obtain ⟨first, later, rfl, rfl, rfl⟩ := map_eq_cons_iff.mp isBehind
  refine ⟨before, first, later, rfl, isContext, rfl, rfl, fromKickoff_of_split ?_ ?_⟩
  · rw [← isKickoff_unmarked]
    exact inTurn.isFirst
  · intro message isIn
    rw [← isKickoff_unmarked]
    exact inTurn.noKickoff _ (mem_map_of_mem isIn)

theorem Message.asConcatText_withVisibility (userVisible agentVisible : Bool)
    (message : Message ι) :
    (message.withVisibility userVisible agentVisible).asConcatText = message.asConcatText := by
  rfl

/-- A gentle effect leaves the prompt in its place. -/
theorem InTurn.applyEffect (inTurn : InTurn context prompt resets session)
    {effect : StateEffect ι} (isGentle : effect.isGentle = true)
    (applies : Agent.applyEffect newMessageId session effect = .ok changed) :
    InTurn context prompt resets changed := by
  obtain ⟨kickoff, rest, parts⟩ := inTurn
  cases effect with
  | appendMessage message =>
    cases applies
    obtain ⟨stored, isStored, hasId, isLast⟩ := exists_addMessage newMessageId message session.rows
    refine ⟨kickoff, rest ++ [stored.unmarked], { parts with
      parts := ?_, noKickoff := ?_, hasIds := ?_ }⟩
    · rw [Session.conversation, isLast, map_append, ← Session.conversation, parts.parts,
        append_assoc]
      rfl
    · refine forall_mem_append.mpr ⟨parts.noKickoff, forall_mem_singleton.mpr ?_⟩
      rw [isKickoff_unmarked, isStored.isKickoff_eq]
      simpa [StateEffect.isGentle] using isGentle
    · refine forall_mem_append.mpr ⟨parts.hasIds, forall_mem_singleton.mpr ?_⟩
      rw [Message.unmarked, hasId]
      rfl
  | patchToolRequestMeta toolCallId executable =>
    cases applies
    refine ⟨kickoff, rest, { parts with parts := ?_ }⟩
    rw [Session.conversation, unmarked_readingOrder, unmarked_updateToolRequestMeta,
      ← unmarked_readingOrder, ← Session.conversation, parts.parts]
  | setRecipe recipe =>
    cases applies
    exact ⟨kickoff, rest, parts⟩
  | setExtensionData extensionData =>
    cases applies
    exact ⟨kickoff, rest, parts⟩
  | recordUsage usage =>
    cases applies
    exact ⟨kickoff, rest, parts⟩
  | replaceConversation conversation usage => cases isGentle
  | setMessageVisibility messageId userVisible agentVisible => cases isGentle

theorem InTurn.applyEffects (inTurn : InTurn context prompt resets session)
    {effects : List (StateEffect ι)} (areGentle : IsGentle effects)
    (applies : Agent.applyEffects newMessageId session effects = (changed, none)) :
    InTurn context prompt resets changed := by
  induction effects generalizing session with
  | nil =>
    cases applies
    exact inTurn
  | cons effect rest ih =>
    obtain ⟨isGentle, restGentle⟩ := forall_mem_cons.mp areGentle
    rw [Agent.applyEffects] at applies
    split at applies
    · next next isNext => exact ih (inTurn.applyEffect isGentle isNext) restGentle applies
    · cases applies

/-- A command may hide the prompt, which is then expanded again. -/
theorem InTurn.hideCommand (isStart : TurnStart context prompt)
    (inTurn : InTurn context prompt resets session) {kickoff : Message ι} {id : String}
    (isAlone : fromKickoff session.conversation = some [kickoff]) (hasId : kickoff.id = some id)
    (isCommand : (parseSlashCommand kickoff.asConcatText).isSome)
    (applies : Agent.applyEffect newMessageId session (Agent.hideCommand id) = .ok changed) :
    InTurn context prompt resets changed := by
  obtain ⟨unmarked, rest, parts⟩ := inTurn
  obtain ⟨before, first, later, isSplit, isContext, isFirst, isLater, isTurn⟩ := parts.exists_split
  obtain ⟨rfl, rfl⟩ : first = kickoff ∧ later = [] := by
    simpa using Option.some.inj (isTurn.symm.trans isAlone)
  have sameId : first.id = prompt.id := by
    rw [← parts.sameId, ← isFirst]
    rfl
  have notBefore : ∀ message ∈ before, message.id ≠ some id := by
    intro message isIn isSame
    have inContext : message.unmarked ∈ context := isContext ▸ mem_map_of_mem isIn
    exact isStart.ownId _ inContext (isSame.trans (hasId.symm.trans sameId))
  obtain ⟨next, isNext, -, isConversation⟩ :=
    exists_setMessageVisibility newMessageId session first id true false
      (by simp [isSplit]) hasId (by
        rw [isSplit]
        intro other isOther isSame
        obtain isOld | isFirst := mem_append.mp isOther
        · exact absurd isSame (notBefore other isOld)
        · exact mem_singleton.mp isFirst)
  obtain rfl : next = changed := Except.ok.inj (isNext.symm.trans applies)
  refine ⟨unmarked.withVisibility true false, [], { parts with
    parts := ?_, isFirst := ?_, noKickoff := by simp, hasIds := by simp, isSeen := .inr ?_ }⟩
  · have sameBefore : before.map (fun other =>
        if other.id = some id then other.withVisibility true false else other) = before := by
      refine (map_congr_left fun other isIn => ?_).trans (map_id' before)
      rw [if_neg (notBefore other isIn)]
    rw [isConversation, isSplit, map_append, sameBefore, map_append, isContext,
      ← isFirst, map_singleton, if_pos hasId]
    rfl
  · have isKickoff := parts.isFirst
    simp only [Agent.isKickoff, Bool.and_eq_true] at isKickoff ⊢
    exact ⟨⟨isKickoff.1.1, rfl⟩, isKickoff.2⟩
  · rw [← isFirst, Message.asConcatText_withVisibility, Message.asConcatText_unmarked]
    exact isCommand

/-- The next attempt begins with the prompt, on which the attempts are counted. -/
theorem nextAttempt_of_split (before later : List (Message ι)) (first : Message ι) :
    nextAttempt (before ++ first :: later) (first :: later) =
      before ++ [first.withAttempts (retryAttempts (first :: later) + 1)] := by
  have isReset : resetConversation (before ++ first :: later) (first :: later) =
      before ++ [first] := by
    rw [resetConversation, length_append, Nat.add_sub_cancel, take_append,
      take_of_length_le (Nat.le_succ _), Nat.add_sub_cancel_left]
    rfl
  simp [nextAttempt, isReset]

/-- A reset leaves the context and the prompt, with one more attempt. -/
theorem InTurn.reset (isStart : TurnStart context prompt)
    (inTurn : InTurn context prompt resets session)
    (isTurn : fromKickoff session.conversation = some turn)
    (applies : Agent.applyEffect newMessageId session
      (.replaceConversation (nextAttempt session.conversation turn) none) = .ok changed) :
    retryAttempts turn = resets ∧
      ∃ kickoff, TurnParts context prompt (resets + 1) changed.conversation kickoff [] := by
  obtain ⟨kickoff, rest, parts⟩ := inTurn
  obtain ⟨before, first, later, isSplit, isContext, isFirst, -, isSameTurn⟩ := parts.exists_split
  obtain rfl : first :: later = turn := Option.some.inj (isSameTurn.symm.trans isTurn)
  have isAttempts : retryAttempts (first :: later) = resets := by
    rw [← parts.attempts, ← isFirst]
    rfl
  refine ⟨isAttempts, kickoff.withAttempts (resets + 1), ?_⟩
  have firstId : first.id = prompt.id := by
    rw [← parts.sameId, ← isFirst]
    rfl
  have hasIds : ∀ message ∈ before ++ [first.withAttempts (resets + 1)], message.id.isSome := by
    refine forall_mem_append.mpr ⟨fun message isIn => ?_, forall_mem_singleton.mpr ?_⟩
    · exact isStart.contextIds message.unmarked (isContext ▸ mem_map_of_mem isIn)
    · exact firstId ▸ isStart.promptId
  have inOrder : (before ++ [first.withAttempts (resets + 1)]).Pairwise
      fun earlier later => earlier.created ≤ later.created := by
    have whole := pairwise_readingOrder session.rows
    rw [← Session.conversation, isSplit] at whole
    have front := whole.sublist ((sublist_append_left [first] later).append_left before)
    rw [pairwise_append] at front ⊢
    refine ⟨front.1, pairwise_singleton _ _, fun message isIn last isLast => ?_⟩
    obtain rfl := mem_singleton.mp isLast
    exact front.2.2 message isIn first (.head _)
  have isConversation : changed.conversation = before ++ [first.withAttempts (resets + 1)] := by
    cases applies
    rw [isSplit, nextAttempt_of_split, isAttempts]
    exact conversation_replaceConversation hasIds inOrder
  refine { parts with
    parts := ?_, isFirst := ?_, noKickoff := by simp, hasIds := by simp, attempts := rfl,
    isSeen := ?_ }
  · rw [isConversation, map_append, isContext, ← isFirst]
    rfl
  · rw [← parts.isFirst]
    rfl
  · refine parts.isSeen.imp id fun isCommand => ?_
    exact isCommand

end InTurn

/-! ## Runs of a turn -/

/-- A step that applied, and the session before and after its effects. -/
structure Round (ι σ : Type) where
  settings : AgentSettings ι σ
  setAt : Nat
  before : Session ι
  tried : Nat
  result : StepResult ι
  after : Session ι

/-- Only a retry replaces the conversation alone and without a usage. -/
def Round.resets (round : Round ι σ) : Bool :=
  match round.result.effects with
  | [.replaceConversation _ none] => true
  | _ => false

structure Round.Runs (newMessageId : Nat → String) (round : Round ι σ) : Prop where
  steps : step (round.settings.steps round.before.recipe) round.setAt round.before.conversation =
    .ok { result := some round.result, tried := round.tried }
  applies : applyEffects newMessageId round.before round.result.effects = (round.after, none)

/-- The loop of `StateMachine::run` in a turn of the user, whatever surrounds each step. -/
inductive TurnRun (newMessageId : Nat → String) (start : Session ι) :
    List (Round ι σ) → Session ι → Prop
  | start : TurnRun newMessageId start [] start
  | next {rounds : List (Round ι σ)} {session : Session ι}
      (run : TurnRun newMessageId start rounds session) (round : Round ι σ)
      (follows : round.before = session) (runs : round.Runs newMessageId) :
      TurnRun newMessageId start (rounds ++ [round]) round.after

/-- A turn begins with a new prompt that the agent sees or that is a command. -/
structure BeginsTurn (start : Session ι) (prompt : Message ι) : Prop where
  isAlone : fromKickoff start.conversation = some [prompt]
  notRetried : prompt.metadata.operations.attempts = none
  isSeen : prompt.metadata.agentVisible = true ∨ (parseSlashCommand prompt.asConcatText).isSome
  hasIds : ∀ message ∈ start.conversation, message.id.isSome
  ownId : ∀ message ∈ beforeKickoff start.conversation, message.id ≠ prompt.id

def agentContext (messages : List (Message ι)) : List (Message ι) :=
  (messages.filter fun message => message.metadata.agentVisible).map Message.unmarked

/-- The conversation ends with the prompt, which leads to an inference, behind the context that the
agent saw before the turn. -/
def StartsAgain (start : Session ι) (prompt : Message ι) (conversation : List (Message ι)) : Prop :=
  ∃ kickoff, fromKickoff conversation = some [kickoff] ∧
    kickoff.unmarked.content = prompt.unmarked.content ∧
    (kickoff.metadata.agentVisible = true ∨ (parseSlashCommand kickoff.asConcatText).isSome) ∧
    agentContext (beforeKickoff conversation) = agentContext (beforeKickoff start.conversation)

/-- Every retry starts the turn again, and the recipe bounds their number. -/
structure RetriesPrompt (start : Session ι) (prompt : Message ι) (rounds : List (Round ι σ)) :
    Prop where
  startsAgain : ∀ round ∈ rounds, round.resets = true →
    StartsAgain start prompt round.after.conversation
  bounded : ∀ front round back, rounds = front ++ round :: back → round.resets = true →
    ∃ config, round.before.recipe.bind Recipe.retry = some config ∧
      (front ++ [round]).countP Round.resets ≤ config.maxRetries

section Runs

variable {newMessageId : Nat → String} {start : Session ι} {prompt : Message ι}
  {rounds : List (Round ι σ)}

theorem BeginsTurn.inTurn (begins : BeginsTurn start prompt) :
    TurnStart ((beforeKickoff start.conversation).map Message.unmarked) prompt.unmarked ∧
      InTurn ((beforeKickoff start.conversation).map Message.unmarked) prompt.unmarked 0 start := by
  have isSplit := append_fromKickoff begins.isAlone
  have inConversation : ∀ message ∈ beforeKickoff start.conversation ++ [prompt],
      message.id.isSome := isSplit.symm ▸ begins.hasIds
  refine ⟨⟨?_, ?_, ?_⟩, prompt.unmarked, [], ?_⟩
  · rw [forall_mem_map]
    exact fun message isIn => inConversation message (mem_append_left _ isIn)
  · exact inConversation prompt (by simp)
  · rw [forall_mem_map]
    exact begins.ownId
  · refine { parts := ?_, isFirst := ?_, noKickoff := by simp, hasIds := by simp, sameId := rfl,
             sameContent := rfl, isSeen := ?_, attempts := ?_ }
    · rw [← map_singleton, ← map_append, isSplit]
    · rw [isKickoff_unmarked]
      exact isKickoff_of_fromKickoff begins.isAlone
    · rw [Message.asConcatText_unmarked]
      exact begins.isSeen
    · rw [Message.unmarked, begins.notRetried]
      rfl

/-- A reset conversation starts the turn again. -/
theorem TurnParts.startsAgain {kickoff : Message ι} {conversation : List (Message ι)}
    {resets : Nat}
    (parts : TurnParts ((beforeKickoff start.conversation).map Message.unmarked) prompt.unmarked
      resets conversation kickoff []) : StartsAgain start prompt conversation := by
  obtain ⟨before, first, later, rfl, isContext, rfl, isLater, isTurn⟩ := parts.exists_split
  obtain rfl := map_eq_nil_iff.mp isLater
  refine ⟨first, isTurn, parts.sameContent, ?_, ?_⟩
  · have isSeen := parts.isSeen
    rwa [Message.asConcatText_unmarked] at isSeen
  · have visibleFirst : ∀ messages : List (Message ι), agentContext messages =
        (messages.map Message.unmarked).filter fun message => message.metadata.agentVisible := by
      intro messages
      rw [filter_map]
      rfl
    rw [beforeKickoff_append isTurn, visibleFirst, visibleFirst, isContext]

/-- One steady step: a retry counts one more attempt and starts the turn again, and the other steps
leave the prompt in its place. -/
theorem Round.inTurn {context : List (Message ι)} {round : Round ι σ} {resets : Nat}
    (runs : round.Runs newMessageId) (steady : Steady round.settings round.before)
    (isStart : TurnStart context prompt) (inTurn : InTurn context prompt resets round.before) :
    (round.resets = false ∧ InTurn context prompt resets round.after) ∨
      (round.resets = true ∧
        (∃ kickoff, TurnParts context prompt (resets + 1) round.after.conversation kickoff []) ∧
        ∃ config, round.before.recipe.bind Recipe.retry = some config ∧
          resets + 1 ≤ config.maxRetries) := by
  obtain ⟨kickoff, rest, parts⟩ := inTurn
  obtain ⟨before, first, later, -, -, -, -, isTurn⟩ := parts.exists_split
  have inTurn : InTurn context prompt resets round.before := ⟨kickoff, rest, parts⟩
  have turnStep := steady.step isTurn runs.steps
  have applies := runs.applies
  obtain ⟨effects, isEffects⟩ : ∃ effects, round.result.effects = effects := ⟨_, rfl⟩
  rw [isEffects] at turnStep applies
  rw [Round.resets, isEffects]
  cases turnStep with
  | gentle areGentle =>
    refine .inl ⟨?_, inTurn.applyEffects areGentle applies⟩
    split
    · cases areGentle _ (.head _)
    · rfl
  | command isAlone hasId isCommand areGentle =>
    rw [Agent.applyEffects] at applies
    split at applies
    · next hidden isHidden =>
      rw [isAlone] at isTurn
      exact .inl ⟨rfl, (inTurn.hideCommand isStart isTurn hasId isCommand isHidden).applyEffects
        areGentle applies⟩
    · cases congrArg Prod.snd applies
  | reset retries attemptsLeft =>
    rw [Agent.applyEffects] at applies
    split at applies
    · next reset isReset =>
      obtain ⟨isAttempts, resetParts⟩ := inTurn.reset isStart isTurn isReset
      cases applies
      exact .inr ⟨rfl, resetParts, _, retries, isAttempts ▸ attemptsLeft⟩
    · cases congrArg Prod.snd applies

theorem RetriesPrompt.next (retries : RetriesPrompt start prompt rounds) {round : Round ι σ}
    (last : round.resets = true → StartsAgain start prompt round.after.conversation ∧
      ∃ config, round.before.recipe.bind Recipe.retry = some config ∧
        rounds.countP Round.resets + 1 ≤ config.maxRetries) :
    RetriesPrompt start prompt (rounds ++ [round]) where
  startsAgain := forall_mem_append.mpr ⟨retries.startsAgain,
    forall_mem_singleton.mpr fun isReset => (last isReset).1⟩
  bounded := by
    intro front other back isSplit isReset
    obtain rfl | ⟨behind, final, rfl⟩ := eq_nil_or_concat back
    · obtain ⟨rfl, isLast⟩ := append_inj' isSplit rfl
      cases isLast
      rw [countP_append, countP_singleton, if_pos isReset]
      exact (last isReset).2
    · rw [concat_eq_append, ← cons_append, ← append_assoc] at isSplit
      exact retries.bounded front other behind (append_inj' isSplit rfl).1 isReset

/-- In a turn of steady steps every retry starts the turn again, at most as often as the recipe
says. -/
theorem TurnRun.retriesPrompt (begins : BeginsTurn start prompt) {session : Session ι}
    (run : TurnRun newMessageId start rounds session)
    (steady : ∀ round ∈ rounds, Steady round.settings round.before) :
    RetriesPrompt start prompt rounds := by
  obtain ⟨isStart, startsIn⟩ := begins.inTurn
  suffices both : InTurn ((beforeKickoff start.conversation).map Message.unmarked) prompt.unmarked
      (rounds.countP Round.resets) session ∧ RetriesPrompt start prompt rounds from both.2
  induction run with
  | start => exact ⟨startsIn, by simp, by simp⟩
  | next run round follows runs ih =>
    obtain ⟨earlierSteady, lastSteady⟩ := forall_mem_append.mp steady
    obtain ⟨inTurn, retries⟩ := ih earlierSteady
    subst follows
    have lastSteady := lastSteady round (.head _)
    rw [countP_append, countP_singleton]
    obtain ⟨notReset, inTurn⟩ | ⟨isReset, ⟨kickoff, parts⟩, retried⟩ :=
      round.inTurn runs lastSteady isStart inTurn
    · rw [if_neg (Bool.eq_false_iff.mp notReset)]
      exact ⟨inTurn, retries.next fun isReset => absurd isReset (Bool.eq_false_iff.mp notReset)⟩
    · rw [if_pos isReset]
      exact ⟨⟨kickoff, [], parts⟩, retries.next fun _ => ⟨parts.startsAgain, retried⟩⟩

end Runs

/-! ## Two turns -/

def failingRecipe : Recipe Unit where
  response := none
  retry := some
    { maxRetries := 2
      checks := [()]
      onFailure := none
      timeoutSeconds := none
      onFailureTimeoutSeconds := none }

def doneReply : Message Unit where
  role := .assistant
  created := 4
  content := [.text { text := "Done.", audience := none }]

def plainHost : MessageHost where
  timestamp := 3
  sanitizeUnicodeTags := id

/-- Every request needs an approval. -/
def approvalSettings : AgentSettings Unit Unit where
  host := plainHost
  steerQueue := []
  maxTurns := 10
  bangCallId := "bang"
  bangArguments := fun _ => ()
  compactionSettings :=
    { managesOwnContext := true, totalTokens := none, overThreshold := fun _ => false, usage := () }
  compaction :=
    { timestamp := 3
      sanitizeUnicodeTags := id
      argumentsText := fun _ => ""
      renderCompaction := .ok
      completeFast := fun _ => .error (.other "offline")
      parseSummary := fun _ => none
      renderSummary := fun _ => .ok "" }
  toolPairCompactionEnabled := false
  toolCallCutoff := 10
  summarize := fun _ _ => none
  gooseMode := .approve
  inspect := fun requests _ => .ok (requests.map fun request =>
    { toolRequestId := request.id
      action := .requireApproval none
      inspectorName := "permission" })
  report := .error ""
  skills :=
    { gooseMode := .approve
      chatModeResponse := ""
      executeSkill := fun _ => .success ""
      installedSkills := ""
      resolve := fun _ => .ok none }
  recipes :=
    { resolve := fun _ => .ok none
      finalOutputTool := fun _ => .ok ()
      executeFinalOutput := fun _ _ => .error ""
      outputText := fun _ => "" }
  execution :=
    { gooseMode := .approve
      chatModeResponse := ""
      knownTools := ["developer__shell"]
      streams := { items := fun _ => [], ofRequest := nofun, oneResult := fun _ _ => Nat.zero_le _ }
      extensionData := ()
      command := fun _ => none }
  unclaimedMark := ()
  retry :=
    { goal := none
      grind := none
      retryTimeout := 300
      onFailureTimeout := 600
      checks := fun _ _ => .ok true
      onFailure := fun _ _ => .ok () }
  stopDecision := .allow
  stopHookBlockCap := 3
  inference :=
    { availableTools := "developer__shell"
      turnContextEvent := fun _ => none
      stream := fun _ => .ok []
      resolvesModel := false
      errorText := ProviderError.text
      estimateUsage := fun _ _ => .ok ()
      status := "" }

/-- The model says that it is done, and the checks fail. -/
def retrySettings : AgentSettings Unit Unit :=
  { approvalSettings with
    retry := { approvalSettings.retry with checks := fun _ _ => .ok false }
    inference :=
      { approvalSettings.inference with
        stream := fun _ => .ok [.ok { message := some doneReply, usage := none }] } }

/-- The context is over its threshold. -/
def overThresholdSettings : AgentSettings Unit Unit :=
  { retrySettings with
    compactionSettings :=
      { managesOwnContext := false
        totalTokens := some 1000
        overThreshold := fun _ => true
        usage := () }
    compaction :=
      { approvalSettings.compaction with
        completeFast := fun _ => .ok { doneReply with role := .assistant, created := 2 } } }

def listPrompt : Message Unit where
  id := some "m1"
  role := .user
  created := 1
  content := [.text { text := "List the files.", audience := none }]

def recipeSession (rows : List (Message Unit)) : Session Unit where
  rows := rows
  recipe := some failingRecipe
  extensionData := ()

/-- The agent answers the conversation and is reset to its prompt. -/
def answerRound (rows : List (Message Unit)) : Round Unit Unit where
  settings := retrySettings
  setAt := 100
  before := recipeSession rows
  tried := 17
  result := { effects := [.recordUsage (), .appendMessage doneReply], yieldToClient := false }
  after := recipeSession (rows ++ [{ doneReply with id := some (toString rows.length) }])

def resetRound (rows reset : List (Message Unit)) : Round Unit Unit where
  settings := retrySettings
  setAt := 100
  before := recipeSession rows
  tried := 14
  result := { effects := [.replaceConversation reset none], yieldToClient := false }
  after := recipeSession reset

def listSession : Session Unit :=
  recipeSession [listPrompt]

theorem beginsTurn_listPrompt : BeginsTurn listSession listPrompt where
  isAlone := by decide +kernel
  notRetried := rfl
  isSeen := .inl rfl
  hasIds := by decide +kernel
  ownId := by decide +kernel

theorem steady_retrySettings {rows : List (Message Unit)}
    (noCommand : ∀ message ∈ (recipeSession rows).conversation,
      (parseSlashCommand message.asConcatText).isNone) :
    Steady retrySettings (recipeSession rows) where
  noSteer result runs := by
    obtain ⟨turn, -, runs⟩ := Data.bind_eq_ok_iff.mp runs
    obtain ⟨role, -, runs⟩ := Data.bind_eq_ok_iff.mp runs
    rw [if_pos (.inr rfl)] at runs
    cases runs
  noCompaction result runs := by cases runs
  noPairs result runs := by cases runs
  notAsking _ _ := rfl
  noClearing kickoff command isTurn isCommand := by
    have isNone := noCommand kickoff ((suffix_of_fromKickoff isTurn).subset (.head _))
    rw [isCommand] at isNone
    cases isNone
  repliesAsAssistant := by
    intro messages chunks isStream chunk isIn message isMessage
    cases isStream
    obtain rfl := Except.ok.inj (mem_singleton.mp isIn)
    cases isMessage
    rfl

/-- The agent answers, the checks fail, and the turn is reset. -/
def retriedRounds : List (Round Unit Unit) :=
  [answerRound [listPrompt],
    resetRound [listPrompt, { doneReply with id := some "1" }] [listPrompt.withAttempts 1]]

theorem turnRun_retriedRounds : TurnRun (fun place => toString place) listSession retriedRounds
    (recipeSession [listPrompt.withAttempts 1]) := by
  refine .next (.next .start (answerRound [listPrompt]) rfl ⟨?_, ?_⟩)
    (resetRound [listPrompt, { doneReply with id := some "1" }] [listPrompt.withAttempts 1])
    ?_ ⟨?_, ?_⟩
  all_goals decide +kernel

/-- The retried turn starts again. -/
theorem retriesPrompt_retriedRounds : RetriesPrompt listSession listPrompt retriedRounds :=
  turnRun_retriedRounds.retriesPrompt beginsTurn_listPrompt (forall_mem_cons.mpr
    ⟨steady_retrySettings (by decide +kernel),
      forall_mem_singleton.mpr (steady_retrySettings (by decide +kernel))⟩)

/-- The compacted conversation: the prompt is hidden, and the agent sees a summary, the note and a
copy of the prompt. -/
def compactedRows : List (Message Unit) :=
  [ { listPrompt.hidden with id := some "m1" },
    { doneReply with id := some "1", role := .user, created := 2, metadata := .agentOnly },
    { id := some "2"
      role := .assistant
      created := 3
      content := [.text { text := conversationContinuationText, audience := none }]
      metadata := .agentOnly },
    { id := some "3"
      role := .user
      created := 3
      content := listPrompt.content
      metadata := .agentOnly } ]

def compactionRound : Round Unit Unit where
  settings := overThresholdSettings
  setAt := 100
  before := listSession
  tried := 5
  result :=
    { effects := [.replaceConversation
        [ listPrompt.hidden,
          { doneReply with role := .user, created := 2, metadata := .agentOnly },
          { role := .assistant
            created := 3
            content := [.text { text := conversationContinuationText, audience := none }]
            metadata := .agentOnly },
          { role := .user
            created := 3
            content := listPrompt.content
            metadata := .agentOnly } ] (some ())]
      yieldToClient := false }
  after := recipeSession compactedRows

/-- The conversation is compacted, the agent answers, and the turn is reset to the hidden prompt. -/
def compactedRounds : List (Round Unit Unit) :=
  [compactionRound, answerRound compactedRows,
    resetRound (compactedRows ++ [{ doneReply with id := some "4" }])
      [listPrompt.hidden.withAttempts 1]]

theorem turnRun_compactedRounds : TurnRun (fun place => toString place) listSession
    compactedRounds (recipeSession [listPrompt.hidden.withAttempts 1]) := by
  refine .next (.next (.next .start compactionRound rfl ⟨?_, ?_⟩)
    (answerRound compactedRows) rfl ⟨?_, ?_⟩)
    (resetRound (compactedRows ++ [{ doneReply with id := some "4" }])
      [listPrompt.hidden.withAttempts 1]) rfl ⟨?_, ?_⟩
  all_goals decide +kernel

/-- After a compaction nothing of the reset conversation is seen by the agent. -/
theorem not_retriesPrompt_compactedRounds : BeginsTurn listSession listPrompt ∧
      TurnRun (fun place => toString place) listSession compactedRounds
        (recipeSession [listPrompt.hidden.withAttempts 1]) ∧
      ¬RetriesPrompt listSession listPrompt compactedRounds := by
  refine ⟨beginsTurn_listPrompt, turnRun_compactedRounds, fun retries => ?_⟩
  obtain ⟨kickoff, isTurn, -, isSeen, -⟩ := retries.startsAgain
    (resetRound (compactedRows ++ [{ doneReply with id := some "4" }])
      [listPrompt.hidden.withAttempts 1]) (by simp [compactedRounds]) rfl
  have isHidden : fromKickoff (recipeSession [listPrompt.hidden.withAttempts 1]).conversation =
      some [listPrompt.hidden.withAttempts 1] := by
    decide +kernel
  cases Option.some.inj (isTurn.symm.trans isHidden)
  obtain isVisible | isCommand := isSeen
  · cases isVisible
  · revert isCommand
    decide +kernel

end Obelus.Agent
