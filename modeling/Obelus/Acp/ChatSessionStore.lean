import Mathlib.Data.Finset.Basic
import Obelus.Acp.Adapter

/-!
# The store of a chat session

The entry of one session: what is shown of it, its adapter, the attempt to prompt that
is active or being cancelled, and the requests to the user.  An action gives the entry
after it and whether the listeners are notified.  A session that the store does not know
behaves like a new entry.
-/

namespace Obelus.Acp

open Obelus.Data (JsMap)

variable {ι : Type}

inductive ChatState
  | idle
  | thinking
  | streaming
  | waitingForUserInput
  | compacting
  | loadingConversation
  | restartingAgent
  deriving DecidableEq

inductive UserInputRequestId
  | permission (toolCallId : String)
  | elicitation (elicitationId : String)
  deriving DecidableEq

structure Session (ι : Type) where
  name : String
  info : ι

structure NotificationEvent (ι : Type) where
  requestId : String
  message : ι

/-- What is shown of a session.  Attempts to prompt are numbered. -/
structure ChatSessionSnapshot (ι : Type) where
  session : Option (Session ι) := none
  messages : List (Message ι) := []
  tokenState : TokenState := {}
  notifications : List (NotificationEvent ι) := []
  progressMessage : Option String := none
  chatState : ChatState := .idle
  sessionLoadError : Option String := none
  activePromptAttemptId : Option Nat := none
  activeRunId : Option String := none
  pendingCancelPromptAttemptId : Option Nat := none

structure PromptCancellationRestoreState where
  activeRunId : Option String
  chatState : ChatState
  pendingUserInputRequestIds : Finset UserInputRequestId

structure StoreEntry (ι : Type) extends ChatSessionSnapshot ι where
  adapter : AdapterState ι := {}
  promptCancellationRestoreState : Option PromptCancellationRestoreState := none
  pendingUserInputRequestIds : Finset UserInputRequestId := ∅
  pendingLocalSteerMessageIds : Finset String := ∅
  preConfirmedSteerMessageIds : Finset String := ∅
  lastSnapshot : Option (ChatSessionSnapshot ι) := none

namespace StoreEntry

/-- `getSnapshot`: a session that is being loaded shows the snapshot of the last
notification. -/
def snapshot (entry : StoreEntry ι) : ChatSessionSnapshot ι :=
  match entry.chatState, entry.lastSnapshot with
  | .loadingConversation, some last => last
  | _, _ => entry.toChatSessionSnapshot

/-- An entry and whether the listeners are notified. -/
abbrev Stepped (ι : Type) := StoreEntry ι × Bool

def notify (entry : StoreEntry ι) : Stepped ι :=
  ({ entry with lastSnapshot := some entry.toChatSessionSnapshot }, true)

/-- `confirmedLocalSteerTextByMessageId`. -/
def confirmedLocalSteerTexts (entry : StoreEntry ι) : JsMap String String :=
  entry.messages.foldl
    (fun texts message =>
      match present message.id, message.content.head? with
      | some id, some (.text text _) =>
        if message.metadata.steer && id ∉ entry.pendingLocalSteerMessageIds then
          texts.set id text
        else texts
      | _, _ => texts) JsMap.empty

/-- `createAdapterForEntry`. -/
def withNewAdapter (entry : StoreEntry ι) : StoreEntry ι :=
  { entry with
    adapter :=
      { messages := entry.messages
        localSteerTextByMessageId := entry.confirmedLocalSteerTexts } }

def retainPendingLocalSteerMessageIds (entry : StoreEntry ι) : StoreEntry ι :=
  { entry with
    pendingLocalSteerMessageIds :=
      entry.pendingLocalSteerMessageIds.filter fun id =>
        entry.messages.any fun message => message.id = some id }

def discardPendingLocalSteerMessages (entry : StoreEntry ι) : StoreEntry ι :=
  if entry.pendingLocalSteerMessageIds = ∅ then entry
  else
    withNewAdapter
      { entry with
        messages := entry.messages.filter fun message =>
          !(present message.id).any fun id => id ∈ entry.pendingLocalSteerMessageIds
        pendingLocalSteerMessageIds := ∅ }

def applyChatStateChange (entry : StoreEntry ι) : ChatStateChange ι → StoreEntry ι
  | .messages messages => retainPendingLocalSteerMessageIds { entry with messages }
  | .tokenState used input output cost =>
    { entry with
      tokenState := { entry.tokenState with
        totalTokens := used
        accumulatedInputTokens := input
        accumulatedOutputTokens := output
        accumulatedTotalTokens := input + output
        accumulatedCost := cost.or entry.tokenState.accumulatedCost } }
  | .progressMessage message => { entry with progressMessage := message }
  | .sessionInfo name activeRunId =>
    { entry with
      session := match name with
        | some name => entry.session.map fun session => { session with name }
        | none => entry.session
      activeRunId := activeRunId.getD entry.activeRunId }
  | .localSteerConfirmed messageId =>
    if messageId ∈ entry.pendingLocalSteerMessageIds then
      { entry with
        pendingLocalSteerMessageIds := entry.pendingLocalSteerMessageIds.erase messageId }
    else
      { entry with
        preConfirmedSteerMessageIds := insert messageId entry.preConfirmedSteerMessageIds }
  | .notification requestId message =>
    { entry with notifications := entry.notifications ++ [{ requestId, message }] }

def applyChatStateChanges (entry : StoreEntry ι) (changes : List (ChatStateChange ι)) :
    StoreEntry ι :=
  changes.foldl applyChatStateChange entry

def setMessages (messages : List (Message ι)) (entry : StoreEntry ι) : Stepped ι :=
  (retainPendingLocalSteerMessageIds { entry with messages }).withNewAdapter.notify

def addPendingLocalSteerMessage (message : Message ι) (entry : StoreEntry ι) : Stepped ι :=
  match present message.id with
  | none => entry.notify
  | some id =>
    if entry.messages.any fun existing => existing.id = some id then entry.notify
    else
      let entry := { entry with messages := entry.messages ++ [message] }
      let entry :=
        if id ∈ entry.preConfirmedSteerMessageIds then
          { entry with
            preConfirmedSteerMessageIds := entry.preConfirmedSteerMessageIds.erase id }
        else
          { entry with
            pendingLocalSteerMessageIds := insert id entry.pendingLocalSteerMessageIds }
      entry.withNewAdapter.notify

def resetReplayState (entry : StoreEntry ι) : StoreEntry ι :=
  { entry with
    messages := []
    tokenState := {}
    notifications := []
    progressMessage := none
    activeRunId := none
    pendingCancelPromptAttemptId := none
    promptCancellationRestoreState := none
    pendingUserInputRequestIds := ∅
    pendingLocalSteerMessageIds := ∅
    preConfirmedSteerMessageIds := ∅
    adapter := {} }

def startSessionLoad (entry : StoreEntry ι) : Stepped ι :=
  notify
    { entry.resetReplayState with
      sessionLoadError := none
      progressMessage := none
      chatState := .loadingConversation }

def finishSessionLoad (session : Session ι) (entry : StoreEntry ι) : Stepped ι :=
  let materialized := retainPendingLocalSteerMessageIds
    { entry with
      session := some session
      sessionLoadError := none
      progressMessage := none
      messages := entry.adapter.messages }
  notify
    { materialized with
      chatState := if entry.activePromptAttemptId.isSome then .streaming else .idle }

def failSessionLoad (sessionLoadError : String) (entry : StoreEntry ι) : Stepped ι :=
  notify
    { entry with
      sessionLoadError := some sessionLoadError
      progressMessage := none
      chatState := .idle }

def setChatState (chatState : ChatState) (entry : StoreEntry ι) : Stepped ι :=
  notify
    { entry with
      progressMessage := if chatState = .idle then none else entry.progressMessage
      chatState }

def startPromptAttempt (promptAttemptId : Nat) (entry : StoreEntry ι) : Stepped ι :=
  notify
    { entry.discardPendingLocalSteerMessages with
      activePromptAttemptId := some promptAttemptId
      activeRunId := none
      pendingCancelPromptAttemptId := none
      promptCancellationRestoreState := none
      pendingUserInputRequestIds := ∅
      chatState := .streaming
      sessionLoadError := none
      notifications := []
      progressMessage := none }

/-- No result when the attempt is not active. -/
def startPromptCancellation (promptAttemptId : Nat) (entry : StoreEntry ι) :
    Option (Stepped ι) :=
  if entry.activePromptAttemptId ≠ some promptAttemptId then none
  else
    some (notify
      { entry.discardPendingLocalSteerMessages with
        promptCancellationRestoreState := some
          { activeRunId := entry.activeRunId
            chatState := entry.chatState
            pendingUserInputRequestIds := entry.pendingUserInputRequestIds }
        activePromptAttemptId := none
        activeRunId := none
        pendingCancelPromptAttemptId := some promptAttemptId
        pendingUserInputRequestIds := ∅
        progressMessage := none
        chatState := .idle })

def clearPromptCancellation (promptAttemptId : Nat) (entry : StoreEntry ι) :
    Option (Stepped ι) :=
  if entry.pendingCancelPromptAttemptId ≠ some promptAttemptId then none
  else
    some (notify
      { entry with
        pendingCancelPromptAttemptId := none
        promptCancellationRestoreState := none })

def restorePromptCancellation (promptAttemptId : Nat) (entry : StoreEntry ι) :
    Option (Stepped ι) :=
  if entry.pendingCancelPromptAttemptId ≠ some promptAttemptId then none
  else
    entry.promptCancellationRestoreState.map fun restoreState => notify
      { entry with
        activePromptAttemptId := some promptAttemptId
        activeRunId := restoreState.activeRunId
        pendingCancelPromptAttemptId := none
        promptCancellationRestoreState := none
        pendingUserInputRequestIds := restoreState.pendingUserInputRequestIds
        chatState := restoreState.chatState }

/-- No result when the attempt is not current. -/
def finishPromptAttemptIfCurrent (promptAttemptId : Nat) (error : Option String)
    (entry : StoreEntry ι) : Option (Stepped ι) :=
  if entry.activePromptAttemptId ≠ some promptAttemptId then none
  else
    some (notify
      { entry.discardPendingLocalSteerMessages with
        activePromptAttemptId := none
        activeRunId := none
        pendingCancelPromptAttemptId := none
        promptCancellationRestoreState := none
        pendingUserInputRequestIds := ∅
        progressMessage := none
        chatState := .idle
        sessionLoadError := error })

/-- The changes of a notification.  While a session is loaded, its messages stay in the
adapter and the listeners are not notified. -/
def applyNotificationChanges (entry : StoreEntry ι) (changes : List (ChatStateChange ι)) :
    Stepped ι :=
  if entry.chatState = .loadingConversation ∧ entry.lastSnapshot.isSome then
    (entry.applyChatStateChanges (changes.filter fun change =>
      match change with
      | .messages _ => false
      | _ => true), false)
  else (entry.applyChatStateChanges changes).notify

def shouldClearProgressMessage : SessionUpdate ι → Bool
  | .agentMessageChunk _ => true
  | .agentThoughtChunk _ => true
  | .toolCall _ => true
  | _ => false

def applyAcpSessionNotification (host : AdapterHost ι) (update : SessionUpdate ι)
    (entry : StoreEntry ι) : Stepped ι :=
  let applied := entry.adapter.apply host update
  applyNotificationChanges
    { entry with
      progressMessage := if shouldClearProgressMessage update then none else entry.progressMessage
      adapter := applied.1 } applied.2

def applyAcpGooseSessionNotification (host : AdapterHost ι) (update : GooseSessionUpdate ι)
    (entry : StoreEntry ι) : Stepped ι :=
  let applied := entry.adapter.applyGoose host update
  applyNotificationChanges { entry with adapter := applied.1 } applied.2

/-- The user is asked. -/
def awaitUserInput (request : UserInputRequestId) (applied : AdapterState.Stepped ι)
    (entry : StoreEntry ι) : Stepped ι :=
  let entry := applyChatStateChanges { entry with adapter := applied.1 } applied.2
  notify
    { entry with
      pendingUserInputRequestIds := insert request entry.pendingUserInputRequestIds
      chatState := .waitingForUserInput }

def applyPermissionRequest (now : Int) (request : PermissionRequest ι) (entry : StoreEntry ι) :
    Stepped ι :=
  entry.awaitUserInput (.permission request.toolCallId)
    (entry.adapter.applyPermissionRequest now request)

def applyElicitationRequest (now : Int) (request : ElicitationRequest ι)
    (entry : StoreEntry ι) : Stepped ι :=
  entry.awaitUserInput (.elicitation request.id)
    (entry.adapter.applyElicitationRequest now request)

def setElicitationStatus (elicitationId : String) (status : ElicitationStatus)
    (entry : StoreEntry ι) : Stepped ι :=
  let applied := entry.adapter.applyElicitationStatus elicitationId status
  if applied.2.isEmpty then ({ entry with adapter := applied.1 }, false)
  else (applyChatStateChanges { entry with adapter := applied.1 } applied.2).notify

def resolveUserInputRequest (request : UserInputRequestId) (entry : StoreEntry ι) : Stepped ι :=
  let pendingUserInputRequestIds := entry.pendingUserInputRequestIds.erase request
  if entry.activePromptAttemptId.isSome ∧ entry.chatState = .waitingForUserInput ∧
      pendingUserInputRequestIds = ∅ then
    notify { entry with pendingUserInputRequestIds, chatState := .streaming }
  else ({ entry with pendingUserInputRequestIds }, false)

end StoreEntry

/-!
## The controller of a chat session

What submitting, stopping and editing do to the entry of a session, up to the next call
that they wait for.  Every step gives the entry after it and the snapshots that the
listeners were given on the way, oldest first.
-/

variable {ι : Type}

/-- `getAnyToolConfirmationData`: its id. -/
def Message.toolConfirmationId (message : Message ι) : Option String :=
  message.content.findSome? fun block =>
    match block with
    | .toolConfirmation id _ _ _ => some id
    | _ => none

def Message.toolResponseIds (message : Message ι) : List String :=
  message.content.filterMap fun block =>
    match block with
    | .toolResponse id _ _ => some id
    | _ => none

/-- `getPendingToolConfirmationIds`. -/
def pendingToolConfirmationIds (messages : List (Message ι)) : List String :=
  (messages.filterMap Message.toolConfirmationId).filter fun id =>
    id ∉ messages.flatMap Message.toolResponseIds

namespace StoreEntry

/-- An entry and the snapshots that the listeners were given. -/
abbrev Told (ι : Type) := StoreEntry ι × List (ChatSessionSnapshot ι)

def told (stepped : Stepped ι) : Told ι :=
  (stepped.1, if stepped.2 then [stepped.1.toChatSessionSnapshot] else [])

/-- `assertNoPendingPromptCancellation`. -/
def assertNoPendingPromptCancellation (entry : StoreEntry ι) : Except String Unit :=
  if entry.snapshot.pendingCancelPromptAttemptId.isSome then
    .error "Cannot submit while prompt cancellation is pending"
  else .ok ()

/-- `submitMessage` up to the call of the prompt, which is not made while an attempt is
active. -/
def submitMessage (promptAttemptId : Nat) (entry : StoreEntry ι) :
    Except String (Option (Told ι)) := do
  assertNoPendingPromptCancellation entry
  if entry.snapshot.activePromptAttemptId.isSome then return none
  return some (told (entry.startPromptAttempt promptAttemptId))

/-- How the call of a prompt settles.  With exhausted credits the controller shows the
messages of its caller and a notice. -/
inductive PromptOutcome (ι : Type)
  | resolved
  | rejected (error : String)
  | creditsExhausted (current : List (Message ι)) (notice : Message ι)

/-- The entry, the snapshots and the arguments of `onFinish` where it is called. -/
abbrev Finished (ι : Type) := Told ι × List (Option String)

def finishPrompt (promptAttemptId : Nat) (error : Option String) (entry : StoreEntry ι) :
    Finished ι :=
  match entry.finishPromptAttemptIfCurrent promptAttemptId error with
  | some finished => (told finished, [error])
  | none => ((entry, []), [])

/-- `submitMessage` after the call of the prompt. -/
def settlePrompt (promptAttemptId : Nat) (outcome : PromptOutcome ι) (entry : StoreEntry ι) :
    Finished ι :=
  match entry.clearPromptCancellation promptAttemptId with
  | some cleared => (told cleared, [])
  | none =>
    match outcome with
    | .resolved => entry.finishPrompt promptAttemptId none
    | .rejected error => entry.finishPrompt promptAttemptId (some ("Submit error: " ++ error))
    | .creditsExhausted current notice =>
      if entry.activePromptAttemptId ≠ some promptAttemptId then ((entry, []), [])
      else
        let shown := told (entry.setMessages (current ++ [notice]))
        let finished := shown.1.finishPrompt promptAttemptId none
        ((finished.1.1, shown.2 ++ finished.1.2), finished.2)

/-- `stop`, and the attempt whose cancellation it starts. -/
def stop (entry : StoreEntry ι) : Told ι × Option Nat :=
  match entry.snapshot.activePromptAttemptId with
  | some promptAttemptId =>
    (((entry.startPromptCancellation promptAttemptId).map told).getD (entry, []),
      some promptAttemptId)
  | none => (told (entry.setChatState .idle), none)

inductive EditType
  | fork
  | edit
  deriving DecidableEq

/-- What `updateMessage` does first. -/
inductive EditStart (ι : Type)
  | forks (created : Int)
  | ignored
  | proceeds (created : Int)
  | cancels (created : Int) (promptAttemptId : Nat) (told : Told ι)

/-- `updateMessage` up to its first call.  `current` is the snapshot of the caller, which
may be older than the entry. -/
def updateMessage (messageId : String) (editType : EditType)
    (current : Option (ChatSessionSnapshot ι)) (entry : StoreEntry ι) :
    Except String (EditStart ι) := do
  assertNoPendingPromptCancellation entry
  let messages := (current.map ChatSessionSnapshot.messages).getD []
  match messages.find? fun message => message.id = some messageId with
  | none => throw ("Message with id " ++ messageId ++ " not found in current messages")
  | some message =>
    if editType = .fork then return .forks message.created
    let editSnapshot := current.getD entry.snapshot
    let isPendingToolPermission := editSnapshot.chatState = .waitingForUserInput ∧
      pendingToolConfirmationIds editSnapshot.messages ≠ []
    match if isPendingToolPermission then entry.snapshot.activePromptAttemptId else none with
    | some promptAttemptId =>
      match entry.startPromptCancellation promptAttemptId with
      | none => throw "Cannot update message while prompt is active"
      | some cancelled => return .cancels message.created promptAttemptId (told cancelled)
    | none =>
      if editSnapshot.chatState = .idle then return .proceeds message.created
      return .ignored

end StoreEntry

end Obelus.Acp
