import Obelus.Acp.AdapterTells
import Obelus.Acp.ChatSessionStore
import Obelus.Transition.Reaches

/-!
# Loading a session

While a session is loaded, the notifications that replay it leave the list of the entry
behind: only the adapter has the messages.  The store is run beside one that copies the
messages of the adapter and notifies its listeners on every notification.
-/

namespace Obelus.Acp

open Obelus.Transition

variable {ι : Type}

namespace StoreEntry

/-- `applyAcpSessionNotification` without the fast path. -/
def copySessionNotification (host : AdapterHost ι) (update : SessionUpdate ι)
    (entry : StoreEntry ι) : Stepped ι :=
  let applied := entry.adapter.apply host update
  let entry :=
    { entry with
      progressMessage := if shouldClearProgressMessage update then none else entry.progressMessage
      adapter := applied.1 }
  (entry.applyChatStateChanges applied.2).notify

/-- `applyAcpGooseSessionNotification` without the fast path. -/
def copyGooseSessionNotification (host : AdapterHost ι) (update : GooseSessionUpdate ι)
    (entry : StoreEntry ι) : Stepped ι :=
  let applied := entry.adapter.applyGoose host update
  (applyChatStateChanges { entry with adapter := applied.1 } applied.2).notify

/-- How the call of a prompt settles, where a notice is shown below the messages of the
snapshot. -/
inductive SettledPrompt (ι : Type)
  | resolved
  | rejected (error : String)
  | creditsExhausted (notice : Message ι)

def SettledPrompt.outcome (entry : StoreEntry ι) : SettledPrompt ι → PromptOutcome ι
  | .resolved => .resolved
  | .rejected error => .rejected error
  | .creditsExhausted notice => .creditsExhausted entry.snapshot.messages notice

end StoreEntry

inductive LoadAction (ι : Type)
  | sessionNotification (host : AdapterHost ι) (update : SessionUpdate ι)
  | gooseSessionNotification (host : AdapterHost ι) (update : GooseSessionUpdate ι)
  | permissionRequest (now : Int) (request : PermissionRequest ι)
  | elicitationRequest (now : Int) (request : ElicitationRequest ι)
  | elicitationStatus (elicitationId : String) (status : ElicitationStatus)
  | resolveUserInputRequest (request : UserInputRequestId)
  | setChatState (chatState : ChatState)
  | addPendingLocalSteerMessage (message : Message ι)
  | startPromptAttempt (promptAttemptId : Nat)
  | startPromptCancellation (promptAttemptId : Nat)
  | clearPromptCancellation (promptAttemptId : Nat)
  | restorePromptCancellation (promptAttemptId : Nat)
  | promptSettles (promptAttemptId : Nat) (outcome : StoreEntry.SettledPrompt ι)
  | startSessionLoad
  | finishSessionLoad (session : Session ι)
  | failSessionLoad (sessionLoadError : String)

/-- What becomes of the messages that the adapter tells: they stay in the adapter, or the
list of the entry is a copy of them. -/
inductive ListEvent
  | heldBack
  | copied
  deriving DecidableEq

/-- The store, and the store that copies on every notification. -/
structure LoadingSession (ι : Type) where
  entry : StoreEntry ι
  copying : StoreEntry ι

namespace LoadAction

/-- A step of a store, given how it takes notifications. -/
def run (notify : AdapterHost ι → SessionUpdate ι → StoreEntry ι → StoreEntry.Stepped ι)
    (notifyGoose : AdapterHost ι → GooseSessionUpdate ι → StoreEntry ι → StoreEntry.Stepped ι)
    (entry : StoreEntry ι) : LoadAction ι → StoreEntry ι
  | .sessionNotification host update => (notify host update entry).1
  | .gooseSessionNotification host update => (notifyGoose host update entry).1
  | .permissionRequest now request => (entry.applyPermissionRequest now request).1
  | .elicitationRequest now request => (entry.applyElicitationRequest now request).1
  | .elicitationStatus elicitationId status => (entry.setElicitationStatus elicitationId status).1
  | .resolveUserInputRequest request => (entry.resolveUserInputRequest request).1
  | .setChatState chatState => (entry.setChatState chatState).1
  | .addPendingLocalSteerMessage message => (entry.addPendingLocalSteerMessage message).1
  | .startPromptAttempt promptAttemptId => (entry.startPromptAttempt promptAttemptId).1
  | .startPromptCancellation promptAttemptId =>
    ((entry.startPromptCancellation promptAttemptId).map Prod.fst).getD entry
  | .clearPromptCancellation promptAttemptId =>
    ((entry.clearPromptCancellation promptAttemptId).map Prod.fst).getD entry
  | .restorePromptCancellation promptAttemptId =>
    ((entry.restorePromptCancellation promptAttemptId).map Prod.fst).getD entry
  | .promptSettles promptAttemptId outcome =>
    (entry.settlePrompt promptAttemptId (outcome.outcome entry)).1.1
  | .startSessionLoad => entry.startSessionLoad.1
  | .finishSessionLoad session => (entry.finishSessionLoad session).1
  | .failSessionLoad sessionLoadError => (entry.failSessionLoad sessionLoadError).1

/-- The messages that a notification tells. -/
def listEvent (entry : StoreEntry ι) (changes : List (ChatStateChange ι)) : List ListEvent :=
  if changes.any ChatStateChange.isMessages then
    [if entry.chatState = .loadingConversation ∧ entry.lastSnapshot.isSome then .heldBack
      else .copied]
  else []

def listEvents (entry : StoreEntry ι) : LoadAction ι → List ListEvent
  | .sessionNotification host update => listEvent entry (entry.adapter.apply host update).2
  | .gooseSessionNotification host update =>
    listEvent entry (entry.adapter.applyGoose host update).2
  | .permissionRequest _ _ => [.copied]
  | .elicitationRequest _ _ => [.copied]
  | .elicitationStatus elicitationId status =>
    if (entry.adapter.applyElicitationStatus elicitationId status).2.isEmpty then []
    else [.copied]
  | .startSessionLoad => [.copied]
  | .finishSessionLoad _ => [.copied]
  | _ => []

end LoadAction

/-- Both stores take the same step. -/
def LoadingSession.step : Machine (LoadingSession ι) (LoadAction ι) ListEvent :=
  fun session action =>
    some
      ({ entry := action.run StoreEntry.applyAcpSessionNotification
          StoreEntry.applyAcpGooseSessionNotification session.entry
         copying := action.run StoreEntry.copySessionNotification
          StoreEntry.copyGooseSessionNotification session.copying },
        action.listEvents session.entry)

/-- The load starts, whatever the session was before. -/
def loadingSession (entry : StoreEntry ι) : LoadingSession ι where
  entry := entry.startSessionLoad.1
  copying := entry.startSessionLoad.1

/-- The session is as in the store that copies, except that its list may lag behind while
messages are held back. -/
structure LosesNothing (config : Config (LoadingSession ι) ListEvent) : Prop where
  tokenState : config.state.entry.tokenState = config.state.copying.tokenState
  notifications : config.state.entry.notifications = config.state.copying.notifications
  pendingLocalSteerMessageIds : config.state.entry.pendingLocalSteerMessageIds =
    config.state.copying.pendingLocalSteerMessageIds
  preConfirmedSteerMessageIds : config.state.entry.preConfirmedSteerMessageIds =
    config.state.copying.preConfirmedSteerMessageIds
  messages : config.trace.getLast? ≠ some .heldBack →
    config.state.entry.messages = config.state.copying.messages

/-- A step that discards pending steer messages finds the messages of the adapter in the
list. -/
def DiscardsCurrent (entry : StoreEntry ι) : Prop :=
  entry.pendingLocalSteerMessageIds = ∅ ∨ entry.messages = entry.adapter.messages

/-- A step that reads the list to make the adapter from it finds the messages of the
adapter there. -/
def ReadsCurrent (entry : StoreEntry ι) : LoadAction ι → Prop
  | .addPendingLocalSteerMessage message =>
    present message.id = none ∨ entry.messages = entry.adapter.messages
  | .startPromptAttempt _ => DiscardsCurrent entry
  | .startPromptCancellation promptAttemptId =>
    entry.activePromptAttemptId = some promptAttemptId → DiscardsCurrent entry
  | .promptSettles promptAttemptId outcome =>
    entry.pendingCancelPromptAttemptId ≠ some promptAttemptId →
      entry.activePromptAttemptId = some promptAttemptId →
      match outcome with
      | .creditsExhausted _ => entry.snapshot.messages = entry.adapter.messages
      | _ => DiscardsCurrent entry
  | _ => True

def readsCurrent : Guard (LoadingSession ι) (LoadAction ι) ListEvent :=
  fun config action _ => ReadsCurrent config.state.entry action

/-!
## The list of an entry and the messages of its adapter

The changes of an adapter step, on entries that differ in their list and in their last
snapshot only.
-/

open List

variable {ι : Type}

namespace StoreEntry

/-- The entry with another list and another last snapshot. -/
def showing (messages : List (Message ι)) (lastSnapshot : Option (ChatSessionSnapshot ι))
    (entry : StoreEntry ι) : StoreEntry ι :=
  { entry with messages, lastSnapshot }

/-- The pending steer messages are in the adapter. -/
def Remembers (entry : StoreEntry ι) : Prop :=
  ∀ id ∈ entry.pendingLocalSteerMessageIds,
    id ≠ "" ∧ ∃ message ∈ entry.adapter.messages, message.id = some id

/-- The other store has the entry with the list of the adapter, and its last snapshot
shows that list. -/
def CopiedBy (entry copying : StoreEntry ι) : Prop :=
  ∃ lastSnapshot, copying = entry.showing entry.adapter.messages lastSnapshot ∧
    ∀ shown ∈ lastSnapshot, shown.messages = entry.adapter.messages

variable {entry : StoreEntry ι} {change : ChatStateChange ι} {changes : List (ChatStateChange ι)}
  {before : AdapterState ι}

/-- A step that both stores take alike, up to the list and the last snapshot. -/
theorem CopiedBy.of_notify {entry' : StoreEntry ι} {messages : List (Message ι)}
    {lastSnapshot : Option (ChatSessionSnapshot ι)} (same : messages = entry.adapter.messages)
    (beside : ∃ list last, entry' = entry.showing list last) :
    entry'.CopiedBy (entry.showing messages lastSnapshot).notify.1 := by
  obtain ⟨list, last, rfl⟩ := beside
  subst same
  refine ⟨some (entry.showing entry.adapter.messages lastSnapshot).toChatSessionSnapshot, rfl, ?_⟩
  rintro shown ⟨⟩
  rfl

theorem retainPendingLocalSteerMessageIds_eq (remembers : ∀ id ∈ entry.pendingLocalSteerMessageIds,
      ∃ message ∈ entry.messages, message.id = some id) :
    entry.retainPendingLocalSteerMessageIds = entry := by
  have kept : entry.pendingLocalSteerMessageIds.filter (fun id =>
      entry.messages.any fun message => message.id = some id) =
      entry.pendingLocalSteerMessageIds := by
    rw [Finset.filter_eq_self]
    intro id member
    obtain ⟨message, inList, same⟩ := remembers id member
    exact any_eq_true.mpr ⟨message, inList, by simpa using same⟩
  unfold retainPendingLocalSteerMessageIds
  rw [kept]

/-- A change that tells no messages does not depend on the list. -/
theorem applyChatStateChange_showing (messages : List (Message ι))
    (lastSnapshot : Option (ChatSessionSnapshot ι)) (entry : StoreEntry ι)
    (silent : change.isMessages = false) :
    (entry.showing messages lastSnapshot).applyChatStateChange change =
      (entry.applyChatStateChange change).showing messages lastSnapshot := by
  cases change with
  | messages told => cases silent
  | localSteerConfirmed messageId =>
    by_cases isPending : messageId ∈ entry.pendingLocalSteerMessageIds <;>
      simp [applyChatStateChange, showing, isPending]
  | _ => rfl

/-- What the changes that tell no messages leave alone. -/
theorem applyChatStateChange_keeps (entry : StoreEntry ι) (silent : change.isMessages = false) :
    (entry.applyChatStateChange change).messages = entry.messages ∧
      (entry.applyChatStateChange change).adapter = entry.adapter ∧
      (entry.applyChatStateChange change).pendingLocalSteerMessageIds ⊆
        entry.pendingLocalSteerMessageIds := by
  cases change with
  | messages told => cases silent
  | localSteerConfirmed messageId =>
    simp only [applyChatStateChange]
    split
    · exact ⟨rfl, rfl, Finset.erase_subset _ _⟩
    · exact ⟨rfl, rfl, Finset.Subset.refl _⟩
  | _ => exact ⟨rfl, rfl, Finset.Subset.refl _⟩

/-- The changes beside the messages. -/
def silentChanges (changes : List (ChatStateChange ι)) : List (ChatStateChange ι) :=
  changes.filter fun change => !change.isMessages

theorem applyChatStateChanges_silent_keeps (entry : StoreEntry ι)
    (changes : List (ChatStateChange ι)) :
    (entry.applyChatStateChanges (silentChanges changes)).messages = entry.messages ∧
      (entry.applyChatStateChanges (silentChanges changes)).adapter = entry.adapter ∧
      (entry.applyChatStateChanges (silentChanges changes)).pendingLocalSteerMessageIds ⊆
        entry.pendingLocalSteerMessageIds := by
  induction changes generalizing entry with
  | nil => exact ⟨rfl, rfl, Finset.Subset.refl _⟩
  | cons change rest ih =>
    cases silent : change.isMessages with
    | true => simpa [silentChanges, silent] using ih entry
    | false =>
      have here := applyChatStateChange_keeps entry silent
      have later := ih (entry.applyChatStateChange change)
      simp only [silentChanges, silent, filter_cons] at later ⊢
      exact ⟨later.1.trans here.1, later.2.1.trans here.2.1, later.2.2.trans here.2.2⟩

/-- The changes of a step, on an entry with any list: the changes beside the messages,
and the list that is told if there is one. -/
theorem applyChatStateChanges_showing {told : List (Message ι)}
    (tells : ∀ messages, .messages messages ∈ changes → messages = told)
    (remembers : ∀ id ∈ entry.pendingLocalSteerMessageIds,
      ∃ message ∈ told, message.id = some id) (messages : List (Message ι))
    (lastSnapshot : Option (ChatSessionSnapshot ι)) :
    (entry.showing messages lastSnapshot).applyChatStateChanges changes =
      (entry.applyChatStateChanges (silentChanges changes)).showing
        (if changes.any ChatStateChange.isMessages then told else messages) lastSnapshot := by
  induction changes generalizing entry messages with
  | nil => rfl
  | cons change rest ih =>
    have restTells : ∀ messages, .messages messages ∈ rest → messages = told :=
      fun messages member => tells messages (mem_cons_of_mem _ member)
    cases silent : change.isMessages with
    | false =>
      have keeps := applyChatStateChange_keeps entry silent
      have later := ih restTells (fun id member => remembers id (keeps.2.2 member)) messages
      simp only [applyChatStateChanges, foldl_cons, silentChanges, filter_cons, silent,
        any_cons] at later ⊢
      rw [applyChatStateChange_showing messages lastSnapshot entry silent]
      exact later
    | true =>
      cases change with
      | messages here =>
        cases tells here mem_cons_self
        have retained : (entry.showing told lastSnapshot).retainPendingLocalSteerMessageIds =
            entry.showing told lastSnapshot :=
          retainPendingLocalSteerMessageIds_eq remembers
        have later := ih restTells remembers told
        simp only [silentChanges, filter_cons, ChatStateChange.isMessages, Bool.not_true,
          Bool.false_eq_true, if_false, any_cons, Bool.true_or, if_true, ite_self] at later ⊢
        rw [← later]
        exact congrArg (fun entry => foldl applyChatStateChange entry rest) retained
      | _ => cases silent

/-- The changes of an adapter step, where the list may lag behind. -/
theorem applyChatStateChanges_of_tells (tells : before.Tells (entry.adapter, changes))
    (remembers : ∀ id ∈ entry.pendingLocalSteerMessageIds,
      id ≠ "" ∧ ∃ message ∈ before.messages, message.id = some id) (messages : List (Message ι))
    (lastSnapshot : Option (ChatSessionSnapshot ι)) :
    (entry.showing messages lastSnapshot).applyChatStateChanges changes =
      (entry.applyChatStateChanges (silentChanges changes)).showing
        (if changes.any ChatStateChange.isMessages then entry.adapter.messages else messages)
        lastSnapshot :=
  applyChatStateChanges_showing tells.told
    (fun id member => tells.keepsIds.exists_id (remembers id member).1 (remembers id member).2)
    messages lastSnapshot

/-- What a step tells, or else what was there, are the messages of the adapter. -/
theorem told_of_tells {after : AdapterState ι} (tells : before.Tells (after, changes)) :
    (if changes.any ChatStateChange.isMessages then after.messages else before.messages) =
      after.messages := by
  split
  · rfl
  · next none =>
    refine (tells.untold fun change member => ?_).symm
    simpa using fun isMessages => none (any_eq_true.mpr ⟨change, member, isMessages⟩)

end StoreEntry

end Obelus.Acp
