import Mathlib.Data.Finset.Card
import Obelus.Acp.ChatSessionStore
import Obelus.Transition.Reaches

/-!
# The attempt of a session

The part of an entry that follows the attempt to prompt: its state, the attempt that is
active or being cancelled, and the requests to the user.  Messages and notifications
leave it alone.
-/

namespace Obelus.Acp

variable {ι : Type}

structure AttemptState where
  chatState : ChatState
  activePromptAttemptId : Option Nat
  pendingCancelPromptAttemptId : Option Nat
  promptCancellationRestoreState : Option PromptCancellationRestoreState
  pendingUserInputRequestIds : Finset UserInputRequestId

namespace AttemptState

/-- The attempt is over. -/
def ended : AttemptState where
  chatState := .idle
  activePromptAttemptId := none
  pendingCancelPromptAttemptId := none
  promptCancellationRestoreState := none
  pendingUserInputRequestIds := ∅

/-- `resolveUserInputRequest`, on the attempt. -/
def resolve (request : UserInputRequestId) (state : AttemptState) : AttemptState :=
  let pendingUserInputRequestIds := state.pendingUserInputRequestIds.erase request
  if state.activePromptAttemptId.isSome ∧ state.chatState = .waitingForUserInput ∧
      pendingUserInputRequestIds = ∅ then
    { state with pendingUserInputRequestIds, chatState := .streaming }
  else { state with pendingUserInputRequestIds }

end AttemptState

namespace StoreEntry

def attemptState (entry : StoreEntry ι) : AttemptState where
  chatState := entry.chatState
  activePromptAttemptId := entry.activePromptAttemptId
  pendingCancelPromptAttemptId := entry.pendingCancelPromptAttemptId
  promptCancellationRestoreState := entry.promptCancellationRestoreState
  pendingUserInputRequestIds := entry.pendingUserInputRequestIds

variable {entry : StoreEntry ι} {promptAttemptId : Nat}

theorem snapshot_of_ne_loading (notLoading : entry.chatState ≠ .loadingConversation) :
    entry.snapshot = entry.toChatSessionSnapshot := by
  unfold snapshot
  split
  · next loading _ => exact absurd loading notLoading
  · rfl

@[simp]
theorem attemptState_notify (entry : StoreEntry ι) :
    entry.notify.1.attemptState = entry.attemptState :=
  rfl

@[simp]
theorem attemptState_applyChatStateChange (entry : StoreEntry ι) (change : ChatStateChange ι) :
    (entry.applyChatStateChange change).attemptState = entry.attemptState := by
  cases change with
  | localSteerConfirmed messageId =>
    dsimp only [applyChatStateChange]
    split <;> rfl
  | _ => rfl

@[simp]
theorem attemptState_applyChatStateChanges (entry : StoreEntry ι)
    (changes : List (ChatStateChange ι)) :
    (entry.applyChatStateChanges changes).attemptState = entry.attemptState := by
  induction changes generalizing entry with
  | nil => rfl
  | cons change rest ih =>
    exact (ih _).trans (attemptState_applyChatStateChange entry change)

@[simp]
theorem attemptState_setElicitationStatus (elicitationId : String) (status : ElicitationStatus)
    (entry : StoreEntry ι) :
    (entry.setElicitationStatus elicitationId status).1.attemptState = entry.attemptState := by
  unfold setElicitationStatus
  dsimp only
  split
  · rfl
  · rw [attemptState_notify, attemptState_applyChatStateChanges]
    rfl

theorem attemptState_startPromptCancellation {cancelled : Stepped ι}
    (starts : entry.startPromptCancellation promptAttemptId = some cancelled) :
    entry.activePromptAttemptId = some promptAttemptId ∧
      cancelled.1.attemptState =
        { chatState := .idle
          activePromptAttemptId := none
          pendingCancelPromptAttemptId := some promptAttemptId
          promptCancellationRestoreState := some
            { activeRunId := entry.activeRunId
              chatState := entry.chatState
              pendingUserInputRequestIds := entry.pendingUserInputRequestIds }
          pendingUserInputRequestIds := ∅ } := by
  unfold startPromptCancellation at starts
  split at starts
  · cases starts
  · next isActive =>
    cases starts
    exact ⟨not_not.mp isActive, rfl⟩

theorem attemptState_clearPromptCancellation {cleared : Stepped ι}
    (clears : entry.clearPromptCancellation promptAttemptId = some cleared) :
    entry.pendingCancelPromptAttemptId = some promptAttemptId ∧
      cleared.1.attemptState =
        { entry.attemptState with
          pendingCancelPromptAttemptId := none
          promptCancellationRestoreState := none } := by
  unfold clearPromptCancellation at clears
  split at clears
  · cases clears
  · next isPending =>
    cases clears
    exact ⟨not_not.mp isPending, rfl⟩

theorem attemptState_restorePromptCancellation {restored : Stepped ι}
    (restores : entry.restorePromptCancellation promptAttemptId = some restored) :
    entry.pendingCancelPromptAttemptId = some promptAttemptId ∧
      ∃ restoreState, entry.promptCancellationRestoreState = some restoreState ∧
        restored.1.attemptState =
          { chatState := restoreState.chatState
            activePromptAttemptId := some promptAttemptId
            pendingCancelPromptAttemptId := none
            promptCancellationRestoreState := none
            pendingUserInputRequestIds := restoreState.pendingUserInputRequestIds } := by
  unfold restorePromptCancellation at restores
  split at restores
  · cases restores
  · next isPending =>
    obtain ⟨restoreState, parked, rfl⟩ := Option.map_eq_some_iff.mp restores
    exact ⟨not_not.mp isPending, restoreState, parked, rfl⟩

theorem attemptState_finishPromptAttemptIfCurrent {error : Option String} {finished : Stepped ι}
    (finishes : entry.finishPromptAttemptIfCurrent promptAttemptId error = some finished) :
    entry.activePromptAttemptId = some promptAttemptId ∧
      finished.1.attemptState = AttemptState.ended := by
  unfold finishPromptAttemptIfCurrent at finishes
  split at finishes
  · cases finishes
  · next isActive =>
    cases finishes
    exact ⟨not_not.mp isActive, rfl⟩

@[simp]
theorem attemptState_awaitUserInput (request : UserInputRequestId)
    (applied : AdapterState.Stepped ι) (entry : StoreEntry ι) :
    (entry.awaitUserInput request applied).1.attemptState =
      { entry.attemptState with
        chatState := .waitingForUserInput
        pendingUserInputRequestIds :=
          insert request entry.attemptState.pendingUserInputRequestIds } := by
  have same := attemptState_applyChatStateChanges { entry with adapter := applied.1 } applied.2
  simp only [attemptState, AttemptState.mk.injEq] at same ⊢
  obtain ⟨-, active, pendingCancel, restoreState, pending⟩ := same
  exact ⟨rfl, active, pendingCancel, restoreState, congrArg (insert request) pending⟩

@[simp]
theorem attemptState_resolveUserInputRequest (request : UserInputRequestId)
    (entry : StoreEntry ι) : (entry.resolveUserInputRequest request).1.attemptState =
      entry.attemptState.resolve request := by
  simp only [resolveUserInputRequest, apply_ite Prod.fst, apply_ite attemptState]
  rfl

/-- A prompt that settles ends its own attempt and its cancellation, and no other. -/
theorem attemptState_settlePrompt (promptAttemptId : Nat) (outcome : PromptOutcome ι)
    (entry : StoreEntry ι) : (entry.settlePrompt promptAttemptId outcome).1.1.attemptState =
      if entry.pendingCancelPromptAttemptId = some promptAttemptId then
        { entry.attemptState with
          pendingCancelPromptAttemptId := none
          promptCancellationRestoreState := none }
      else if entry.activePromptAttemptId = some promptAttemptId then AttemptState.ended
      else entry.attemptState := by
  have finishes (error : Option String) (entry : StoreEntry ι) :
      (entry.finishPrompt promptAttemptId error).1.1.attemptState =
        if entry.activePromptAttemptId = some promptAttemptId then AttemptState.ended
        else entry.attemptState := by
    unfold finishPrompt
    cases finished : entry.finishPromptAttemptIfCurrent promptAttemptId error with
    | none =>
      have notActive : entry.activePromptAttemptId ≠ some promptAttemptId := by
        intro isActive
        simp [finishPromptAttemptIfCurrent, isActive] at finished
      rw [if_neg notActive]
    | some stepped =>
      obtain ⟨isActive, ended⟩ := attemptState_finishPromptAttemptIfCurrent finished
      rw [if_pos isActive]
      exact ended
  unfold settlePrompt
  cases clears : entry.clearPromptCancellation promptAttemptId with
  | some cleared =>
    obtain ⟨isPending, same⟩ := attemptState_clearPromptCancellation clears
    rw [if_pos isPending]
    exact same
  | none =>
    have notPending : entry.pendingCancelPromptAttemptId ≠ some promptAttemptId := by
      intro isPending
      simp [clearPromptCancellation, isPending] at clears
    rw [if_neg notPending]
    cases outcome with
    | resolved => exact finishes none entry
    | rejected error => exact finishes _ entry
    | creditsExhausted current notice =>
      by_cases isActive : entry.activePromptAttemptId = some promptAttemptId
      · dsimp only
        rw [if_neg (not_not.mpr isActive)]
        exact finishes none _
      · simp [isActive]

/-- An attempt finishes when its prompt settles while it is active. -/
theorem length_settlePrompt (promptAttemptId : Nat) (outcome : PromptOutcome ι)
    (entry : StoreEntry ι) : (entry.settlePrompt promptAttemptId outcome).2.length =
      if entry.pendingCancelPromptAttemptId = some promptAttemptId then 0
      else if entry.activePromptAttemptId = some promptAttemptId then 1 else 0 := by
  have finishes (error : Option String) (entry : StoreEntry ι) :
      (entry.finishPrompt promptAttemptId error).2.length =
        if entry.activePromptAttemptId = some promptAttemptId then 1 else 0 := by
    unfold finishPrompt finishPromptAttemptIfCurrent
    by_cases isActive : entry.activePromptAttemptId = some promptAttemptId <;> simp [isActive]
  unfold settlePrompt clearPromptCancellation
  by_cases isPending : entry.pendingCancelPromptAttemptId = some promptAttemptId
  · simp [isPending]
  · simp only [ne_eq, isPending]
    cases outcome with
    | resolved => exact finishes none entry
    | rejected error => exact finishes _ entry
    | creditsExhausted current notice =>
      by_cases isActive : entry.activePromptAttemptId = some promptAttemptId
      · dsimp only
        rw [if_neg (not_not.mpr isActive)]
        exact finishes none _
      · simp [isActive]

theorem submitMessage_eq_some {submitted : Told ι}
    (submits : entry.submitMessage promptAttemptId = .ok (some submitted)) :
    entry.snapshot.pendingCancelPromptAttemptId = none ∧
      entry.snapshot.activePromptAttemptId = none ∧
      submitted = told (entry.startPromptAttempt promptAttemptId) := by
  simp only [submitMessage, assertNoPendingPromptCancellation, bind, Except.bind] at submits
  split at submits
  · cases submits
  · next notPending =>
    split at notPending
    · cases notPending
    · next notCancelled =>
      split at submits
      · cases submits
      · next notActive =>
        cases submits
        exact ⟨by simpa using notCancelled, by simpa using notActive, rfl⟩

theorem updateMessage_eq_cancels {messageId : String} {editType : EditType}
    {current : Option (ChatSessionSnapshot ι)} {created : Int} {cancelled : Told ι}
    (cancels : entry.updateMessage messageId editType current =
      .ok (.cancels created promptAttemptId cancelled)) :
    ∃ stepped, entry.startPromptCancellation promptAttemptId = some stepped ∧
      cancelled = told stepped := by
  simp only [updateMessage, bind, Except.bind] at cancels
  split at cancels
  · cases cancels
  · split at cancels
    · cases cancels
    · split at cancels
      · cases cancels
      · split at cancels
        · split at cancels
          · cases cancels
          · next stepped starts =>
            cases cancels
            exact ⟨stepped, starts, rfl⟩
        · split at cancels <;> cases cancels

end StoreEntry

/-!
## The prompts of a session

Submitting, stopping, editing and loading on one session.  The calls of a prompt, of a
cancellation, of a truncation and of a load settle at any later time; what follows such a
call up to the next one is one step.
-/

open Obelus.Data (JsMap)
open Obelus.Transition

variable {ι : Type}

/-- What an edit waits for: the call that cancels the active attempt, the end of this
attempt, or the call that truncates the conversation.  `kept` are the messages before the
edited one. -/
inductive EditPhase (ι : Type)
  | cancelling (promptAttemptId : Nat) (kept : List (Message ι))
  | waiting (promptAttemptId : Nat) (kept : List (Message ι))
  | truncating (kept : List (Message ι))

/-- The promise of `waitForPromptCancellation` that an edit holds. -/
structure Waiter where
  edit : Nat
  promptAttemptId : Nat
  deriving DecidableEq

/-- The entry of a session, the number of attempts and of edits made so far, the attempts
whose prompt is being called, the edits under way, the promises that are not settled, the
number of callers of the load in flight, and how loads settled whose callers go on. -/
structure PromptSession (ι : Type) where
  entry : StoreEntry ι := {}
  attempts : Nat := 0
  promptCalls : Finset Nat := ∅
  editsMade : Nat := 0
  edits : JsMap Nat (EditPhase ι) := JsMap.empty
  waiters : List Waiter := []
  loading : Nat := 0
  returning : List (Except String (Session ι)) := []

inductive PromptAction (ι : Type)
  | submitMessage
  | promptSettles (promptAttemptId : Nat) (outcome : StoreEntry.PromptOutcome ι)
  | stop
  | updateMessage (messageId : String) (editType : StoreEntry.EditType)
      (current : Option (ChatSessionSnapshot ι))
  | cancelResolves (edit : Nat)
  | cancelRejects (edit : Nat)
  | waited (edit : Nat)
  | truncateResolves (edit : Nat) (updatedUserMessage : Message ι)
  | truncateRejects (edit : Nat)
  | loadSession
  | restoreSession
  | loadSettles (outcome : Except String (Session ι))
  | loadReturns

inductive PromptEvent
  | cancelled (promptAttemptId : Nat)
  | restored (promptAttemptId : Nat)
  | settled (promptAttemptId : Nat)
  | finished (promptAttemptId : Nat) (error : Option String)
  deriving DecidableEq

/-- The events of a call that settles, with the arguments of `onFinish`. -/
def PromptEvent.ofSettled (promptAttemptId : Nat) (errors : List (Option String)) :
    List PromptEvent :=
  .settled promptAttemptId :: errors.map (.finished promptAttemptId)

namespace PromptSession

/-- The entry after a step.  A promise settles when the listeners are given a snapshot
in which its attempt is not being cancelled. -/
def tell (told : StoreEntry.Told ι) (session : PromptSession ι) : PromptSession ι :=
  { session with
    entry := told.1
    waiters := session.waiters.filter fun waiter =>
      told.2.all fun snapshot =>
        snapshot.pendingCancelPromptAttemptId = some waiter.promptAttemptId }

/-- `submitMessage` up to the call of the prompt. -/
def submitMessage (session : PromptSession ι) : Except String (PromptSession ι) :=
  (session.entry.submitMessage session.attempts).map fun submitted =>
    match submitted with
    | some told =>
      { session.tell told with
        attempts := session.attempts + 1
        promptCalls := insert session.attempts session.promptCalls }
    | none => session

/-- `stop`, and the attempt whose cancellation starts. -/
def stop (session : PromptSession ι) : PromptSession ι × List PromptEvent :=
  let stopped := session.entry.stop
  (session.tell stopped.1, stopped.2.toList.map .cancelled)

/-- The messages before the one that is edited. -/
def keptMessages (current : Option (ChatSessionSnapshot ι)) (created : Int) :
    List (Message ι) :=
  ((current.map ChatSessionSnapshot.messages).getD []).filter fun message =>
    message.created < created

/-- The edit truncates the conversation. -/
def truncate (edit : Nat) (kept : List (Message ι)) (session : PromptSession ι) :
    PromptSession ι :=
  { session.tell (StoreEntry.told (session.entry.setChatState .thinking)) with
    edits := session.edits.set edit (.truncating kept) }

def updateMessage (messageId : String) (editType : StoreEntry.EditType)
    (current : Option (ChatSessionSnapshot ι)) (session : PromptSession ι) :
    PromptSession ι × List PromptEvent :=
  match session.entry.updateMessage messageId editType current with
  | .ok (.proceeds created) =>
    ({ session with editsMade := session.editsMade + 1 }.truncate session.editsMade
      (keptMessages current created), [])
  | .ok (.cancels created promptAttemptId told) =>
    let session' := session.tell told
    ({ session' with
      editsMade := session.editsMade + 1
      edits := session.edits.set session.editsMade
        (.cancelling promptAttemptId (keptMessages current created))
      waiters := session'.waiters ++ [⟨session.editsMade, promptAttemptId⟩] },
      [.cancelled promptAttemptId])
  | _ => (session, [])

/-- The end of an edit that fails. -/
def failEdit (edit : Nat) (session : PromptSession ι) : PromptSession ι :=
  { session.tell (StoreEntry.told (session.entry.setChatState .idle)) with
    edits := session.edits.delete edit }

/-- The edit submits the updated message. -/
def submitEdit (edit : Nat) (messages : List (Message ι)) (session : PromptSession ι) :
    PromptSession ι :=
  let shown := session.tell (StoreEntry.told (session.entry.setMessages messages))
  match shown.submitMessage with
  | .ok submitted => { submitted with edits := session.edits.delete edit }
  | .error _ => shown.failEdit edit

/-- `loadSessionFromServer` up to the load, which the callers share. -/
def loadSessionFromServer (session : PromptSession ι) : PromptSession ι :=
  let started :=
    if session.loading = 0 then session.tell (StoreEntry.told session.entry.startSessionLoad)
    else session
  { started with loading := session.loading + 1 }

/-- A session that is known is not loaded. -/
def loadSession (session : PromptSession ι) : PromptSession ι :=
  if session.entry.snapshot.session.isSome then session else session.loadSessionFromServer

/-- `loadSessionFromServer` after the load. -/
def loadReturns (outcome : Except String (Session ι)) (session : PromptSession ι) :
    PromptSession ι :=
  session.tell (StoreEntry.told (match outcome with
    | .ok loaded => session.entry.finishSessionLoad loaded
    | .error error => session.entry.failSessionLoad error))

def step : Machine (PromptSession ι) (PromptAction ι) PromptEvent
  | session, .submitMessage =>
    match session.submitMessage with
    | .ok submitted => some (submitted, [])
    | .error _ => some (session, [])
  | session, .promptSettles promptAttemptId outcome =>
    if promptAttemptId ∈ session.promptCalls then
      let finished := session.entry.settlePrompt promptAttemptId outcome
      some ({ session.tell finished.1 with
        promptCalls := session.promptCalls.erase promptAttemptId },
        PromptEvent.ofSettled promptAttemptId finished.2)
    else none
  | session, .stop => some session.stop
  | session, .updateMessage messageId editType current =>
    some (session.updateMessage messageId editType current)
  | session, .cancelResolves edit =>
    match session.edits.get? edit with
    | some (.cancelling promptAttemptId kept) =>
      some ({ session with
        edits := session.edits.set edit (.waiting promptAttemptId kept) }, [])
    | _ => none
  | session, .cancelRejects edit =>
    match session.edits.get? edit with
    | some (.cancelling promptAttemptId _) =>
      let failed := { session with edits := session.edits.delete edit }
      match session.entry.restorePromptCancellation promptAttemptId with
      | some restored =>
        some (failed.tell (StoreEntry.told restored), [.restored promptAttemptId])
      | none => some (failed, [])
    | _ => none
  | session, .waited edit =>
    match session.edits.get? edit with
    | some (.waiting promptAttemptId kept) =>
      if ⟨edit, promptAttemptId⟩ ∈ session.waiters then none
      else some (session.truncate edit kept, [])
    | _ => none
  | session, .truncateResolves edit updatedUserMessage =>
    match session.edits.get? edit with
    | some (.truncating kept) =>
      some (session.submitEdit edit (kept ++ [updatedUserMessage]), [])
    | _ => none
  | session, .truncateRejects edit =>
    match session.edits.get? edit with
    | some (.truncating _) => some (session.failEdit edit, [])
    | _ => none
  | session, .loadSession => some (session.loadSession, [])
  | session, .restoreSession => some (session.loadSessionFromServer, [])
  | session, .loadSettles outcome =>
    if session.loading = 0 then none
    else
      some ({ session with
        loading := 0
        returning := session.returning ++ List.replicate session.loading outcome }, [])
  | session, .loadReturns =>
    match session.returning with
    | [] => none
    | outcome :: rest => some ({ session.loadReturns outcome with returning := rest }, [])

end PromptSession

def PromptEvent.finishes (promptAttemptId : Nat) : PromptEvent → Bool
  | .finished other _ => other = promptAttemptId
  | _ => false

/-- One prompt is called at a time, and every attempt ends once unless a cancellation of
it stands. -/
structure OnePrompt (config : Config (PromptSession ι) PromptEvent) : Prop where
  oneCall : config.state.promptCalls.card ≤ 1
  exclusive : config.state.entry.activePromptAttemptId = none ∨
    config.state.entry.pendingCancelPromptAttemptId = none
  settled : ∀ promptAttemptId, .settled promptAttemptId ∈ config.trace →
    config.state.entry.activePromptAttemptId ≠ some promptAttemptId
  atMostOnce : ∀ promptAttemptId,
    config.trace.countP (PromptEvent.finishes promptAttemptId) ≤ 1
  once : ∀ promptAttemptId, .settled promptAttemptId ∈ config.trace →
    config.trace.count (.cancelled promptAttemptId) =
      config.trace.count (.restored promptAttemptId) →
    config.trace.countP (PromptEvent.finishes promptAttemptId) = 1
  waiters : ∀ waiter ∈ config.state.waiters,
    .settled waiter.promptAttemptId ∉ config.trace

/-- The step starts a load of the session. -/
def StartsLoad (session : PromptSession ι) : PromptAction ι → Prop
  | .loadSession => session.entry.snapshot.session = none ∧ session.loading = 0
  | .restoreSession => session.loading = 0
  | _ => False

/-- No load starts while an attempt is being cancelled. -/
def keepsCancellation : Guard (PromptSession ι) (PromptAction ι) PromptEvent :=
  fun config action _ => StartsLoad config.state action →
    config.state.entry.pendingCancelPromptAttemptId = none

end Obelus.Acp
