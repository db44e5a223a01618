import Obelus.Acp.SessionLoad

/-!
# A load of a session loses nothing

Beside its list and its last snapshot the entry is the one of the store that copies, and
the list of that store is the one of the adapter.
-/

namespace Obelus.Acp

open Obelus.Transition List

variable {ι : Type}

/-! ## Steps -/

open StoreEntry
open ChatStateChange (isMessages)
open LoadAction (listEvent listEvents)

/-- What every step keeps. -/
structure Replays (trace : List ListEvent) (entry copying : StoreEntry ι) : Prop where
  copied : entry.CopiedBy copying
  remembers : entry.Remembers
  current : trace.getLast? ≠ some .heldBack → entry.messages = entry.adapter.messages

namespace Replays

variable {trace : List ListEvent} {entry copying : StoreEntry ι}

variable {entry' : StoreEntry ι} {changes : List (ChatStateChange ι)}

theorem of_remembers (trace : List ListEvent) (remembers : entry'.Remembers)
    (current : trace.getLast? ≠ some .heldBack → entry'.messages = entry'.adapter.messages)
    (lastSnapshot : Option (ChatSessionSnapshot ι)) : Replays trace entry'.notify.1
      (entry'.showing entry'.adapter.messages lastSnapshot).notify.1 where
  copied := CopiedBy.of_notify rfl ⟨entry'.messages, _, rfl⟩
  remembers := remembers
  current := current

section

variable (replays : Replays trace entry copying)
include replays

/-- A step that leaves the list, the adapter and the steer messages alone. -/
theorem notify (entry' : StoreEntry ι) (messages : entry'.messages = entry.messages)
    (adapter : entry'.adapter = entry.adapter)
    (pending : entry'.pendingLocalSteerMessageIds = entry.pendingLocalSteerMessageIds)
    (lastSnapshot : Option (ChatSessionSnapshot ι)) : Replays trace entry'.notify.1
      (entry'.showing entry.adapter.messages lastSnapshot).notify.1 := by
  rw [← adapter]
  refine of_remembers _ (fun id member => ?_) (fun current => ?_) lastSnapshot
  · rw [adapter]
    exact replays.remembers id (pending ▸ member)
  · rw [messages, adapter]
    exact replays.current current

theorem remembers_of {base : StoreEntry ι}
    (pending : base.pendingLocalSteerMessageIds = entry.pendingLocalSteerMessageIds) :
    ∀ id ∈ base.pendingLocalSteerMessageIds,
      id ≠ "" ∧ ∃ message ∈ entry.adapter.messages, message.id = some id :=
  fun id member => replays.remembers id (pending ▸ member)

/-- The adapter takes a step, and the entry gets all changes or those beside the
messages. -/
theorem changed {base : StoreEntry ι} {events : List ListEvent}
    (tells : entry.adapter.Tells (base.adapter, changes))
    (pending : base.pendingLocalSteerMessageIds = entry.pendingLocalSteerMessageIds)
    (beside : ∃ list last, entry' =
      (base.applyChatStateChanges (silentChanges changes)).showing list last ∧
        ((trace ++ events).getLast? ≠ some .heldBack →
          list = if changes.any isMessages then base.adapter.messages
            else entry.messages) ∧
        (changes.any isMessages = false → events = []))
    (lastSnapshot : Option (ChatSessionSnapshot ι)) : Replays (trace ++ events) entry'
      ((base.showing entry.adapter.messages lastSnapshot).applyChatStateChanges
        changes).notify.1 := by
  have keeps := applyChatStateChanges_silent_keeps base changes
  have told := told_of_tells tells
  obtain ⟨list, last, rfl, isList, noEvents⟩ := beside
  rw [applyChatStateChanges_of_tells tells (replays.remembers_of pending), told]
  refine
    { copied := CopiedBy.of_notify (by rw [keeps.2.1]) ⟨list, last, rfl⟩
      remembers := ?_
      current := ?_ }
  · intro id member
    have before := replays.remembers_of pending id (keeps.2.2 member)
    refine ⟨before.1, ?_⟩
    have kept := tells.keepsIds.exists_id before.1 before.2
    rwa [← keeps.2.1] at kept
  · intro current
    have adapter : ((base.applyChatStateChanges (silentChanges changes)).showing list
        last).adapter.messages = base.adapter.messages := congrArg AdapterState.messages keeps.2.1
    rw [adapter, ← told]
    refine (isList current).trans ?_
    split
    · rfl
    · next none =>
      have isNone : changes.any isMessages = false := by simpa using none
      rw [noEvents isNone, append_nil] at current
      exact replays.current current

/-- The changes on an entry whose list is the one of the adapter. -/
theorem changes_showing (base : StoreEntry ι) (tells : entry.adapter.Tells (base.adapter, changes))
    (pending : base.pendingLocalSteerMessageIds = entry.pendingLocalSteerMessageIds)
    (lastSnapshot : Option (ChatSessionSnapshot ι)) :
    (base.showing entry.adapter.messages lastSnapshot).applyChatStateChanges changes =
      (base.applyChatStateChanges changes).showing
        (base.applyChatStateChanges changes).adapter.messages lastSnapshot := by
  have keeps := applyChatStateChanges_silent_keeps base changes
  have full := applyChatStateChanges_of_tells tells (replays.remembers_of pending)
    base.messages base.lastSnapshot
  have told := told_of_tells tells
  have adapter : (base.applyChatStateChanges changes).adapter = base.adapter :=
    (congrArg adapter full).trans keeps.2.1
  rw [applyChatStateChanges_of_tells tells (replays.remembers_of pending), told, adapter]
  exact (congrArg (showing base.adapter.messages lastSnapshot) full).symm

/-- A notification, on the fast path or beside it. -/
theorem notified (base : StoreEntry ι) (tells : entry.adapter.Tells (base.adapter, changes))
    (messages : base.messages = entry.messages)
    (pending : base.pendingLocalSteerMessageIds = entry.pendingLocalSteerMessageIds)
    (replay : base.chatState = .loadingConversation ∧ base.lastSnapshot.isSome ↔
      entry.chatState = .loadingConversation ∧ entry.lastSnapshot.isSome)
    (lastSnapshot : Option (ChatSessionSnapshot ι)) :
    Replays (trace ++ listEvent entry changes)
      (base.applyNotificationChanges changes).1
      ((base.showing entry.adapter.messages lastSnapshot).applyChatStateChanges
        changes).notify.1 := by
  refine replays.changed tells pending ?_ lastSnapshot
  by_cases replaying : entry.chatState = .loadingConversation ∧ entry.lastSnapshot.isSome
  · have fast : (base.applyNotificationChanges changes).1 =
        base.applyChatStateChanges (silentChanges changes) := by
      rw [applyNotificationChanges, if_pos (replay.mpr replaying)]
      refine congrArg base.applyChatStateChanges (filter_congr fun change _ => ?_)
      cases change <;> rfl
    refine ⟨(base.applyChatStateChanges (silentChanges changes)).messages,
      (base.applyChatStateChanges (silentChanges changes)).lastSnapshot, fast, ?_, ?_⟩
    · intro current
      cases silent : changes.any isMessages with
      | true => simp [listEvent, silent, replaying] at current
      | false =>
        rw [(applyChatStateChanges_silent_keeps base changes).1, messages]
        simp
    · intro silent
      simp [listEvent, silent]
  · have slow : (base.applyNotificationChanges changes).1 =
        (base.applyChatStateChanges changes).notify.1 := by
      rw [applyNotificationChanges, if_neg fun replays => replaying (replay.mp replays)]
    have full := applyChatStateChanges_of_tells tells (replays.remembers_of pending)
      base.messages base.lastSnapshot
    refine ⟨_, _, slow.trans (congrArg (fun entry => entry.notify.1) full), ?_, ?_⟩
    · intro _
      rw [messages]
    · intro silent
      simp [listEvent, silent]

/-- The entry gets all changes of a step that tells messages. -/
theorem copies (base : StoreEntry ι) (tells : entry.adapter.Tells (base.adapter, changes))
    (pending : base.pendingLocalSteerMessageIds = entry.pendingLocalSteerMessageIds)
    (tellsMessages : changes.any isMessages)
    (lastSnapshot : Option (ChatSessionSnapshot ι)) :
    Replays (trace ++ [.copied]) (base.applyChatStateChanges changes)
      ((base.showing entry.adapter.messages lastSnapshot).applyChatStateChanges
        changes).notify.1 := by
  have full := applyChatStateChanges_of_tells tells (replays.remembers_of pending)
    base.messages base.lastSnapshot
  refine replays.changed tells pending ⟨_, _, full, fun _ => ?_, ?_⟩ lastSnapshot
  · rw [if_pos tellsMessages, if_pos tellsMessages]
  · intro silent
    simp [tellsMessages] at silent

/-- The user is asked, and the list is a copy of the messages of the adapter. -/
theorem awaitUserInput (request : UserInputRequestId) {applied : AdapterState.Stepped ι}
    (tells : entry.adapter.Tells applied) (tellsMessages : applied.2.any isMessages)
    : Replays (trace ++ [.copied]) (entry.awaitUserInput request applied).1
      (copying.awaitUserInput request applied).1 := by
  obtain ⟨adapter, changes⟩ := applied
  obtain ⟨lastSnapshot, same, -⟩ := replays.copied
  let base : StoreEntry ι := { entry with adapter }
  have copied := replays.copies base tells rfl tellsMessages lastSnapshot
  have shown := replays.changes_showing base tells rfl lastSnapshot
  let asking (entry : StoreEntry ι) : StoreEntry ι :=
    { entry with
      pendingUserInputRequestIds := insert request entry.pendingUserInputRequestIds
      chatState := .waitingForUserInput }
  have asked := copied.notify (asking (base.applyChatStateChanges changes)) rfl rfl rfl lastSnapshot
  have beside : (copying.awaitUserInput request (adapter, changes)).1 =
      (asking ((base.showing entry.adapter.messages lastSnapshot).applyChatStateChanges
        changes)).notify.1 := by
    rw [same]
    rfl
  rw [beside, shown]
  exact asked

/-- A step that the listeners are not told of. -/
theorem silent (entry' : StoreEntry ι) (messages : entry'.messages = entry.messages)
    (adapter : entry'.adapter = entry.adapter)
    (pending : entry'.pendingLocalSteerMessageIds = entry.pendingLocalSteerMessageIds)
    {lastSnapshot : Option (ChatSessionSnapshot ι)}
    (shown : ∀ shown ∈ lastSnapshot, shown.messages = entry.adapter.messages) :
    Replays trace entry' (entry'.showing entry.adapter.messages lastSnapshot) where
  copied := ⟨lastSnapshot, by rw [adapter], by rwa [adapter]⟩
  remembers := by
    intro id member
    have before := replays.remembers id (pending ▸ member)
    exact ⟨before.1, adapter ▸ before.2⟩
  current := fun current => by
    rw [messages, adapter]
    exact replays.current current

theorem resolveUserInputRequest (request : UserInputRequestId) :
    Replays trace (entry.resolveUserInputRequest request).1
      (copying.resolveUserInputRequest request).1 := by
  obtain ⟨lastSnapshot, rfl, shown⟩ := replays.copied
  let pendingUserInputRequestIds := entry.pendingUserInputRequestIds.erase request
  by_cases last : entry.activePromptAttemptId.isSome ∧ entry.chatState = .waitingForUserInput ∧
      pendingUserInputRequestIds = ∅
  · have resolved := replays.notify
      { entry with pendingUserInputRequestIds, chatState := .streaming } rfl rfl rfl lastSnapshot
    simpa [resolveUserInputRequest, showing, last, pendingUserInputRequestIds]
      using resolved
  · have resolved := replays.silent { entry with pendingUserInputRequestIds } rfl rfl rfl shown
    simpa [resolveUserInputRequest, showing, last, pendingUserInputRequestIds]
      using resolved

theorem clearPromptCancellation (promptAttemptId : Nat) :
    Replays trace (((entry.clearPromptCancellation promptAttemptId).map Prod.fst).getD entry)
      (((copying.clearPromptCancellation promptAttemptId).map Prod.fst).getD copying) := by
  obtain ⟨lastSnapshot, same, shown⟩ := replays.copied
  by_cases isPending : entry.pendingCancelPromptAttemptId = some promptAttemptId
  · have cleared := replays.notify
      { entry with
        pendingCancelPromptAttemptId := none
        promptCancellationRestoreState := none } rfl rfl rfl lastSnapshot
    simpa [StoreEntry.clearPromptCancellation, same, showing, isPending] using cleared
  · simpa [StoreEntry.clearPromptCancellation, same, showing, isPending] using replays

theorem restorePromptCancellation (promptAttemptId : Nat) :
    Replays trace (((entry.restorePromptCancellation promptAttemptId).map Prod.fst).getD entry)
      (((copying.restorePromptCancellation promptAttemptId).map Prod.fst).getD copying) := by
  obtain ⟨lastSnapshot, same, shown⟩ := replays.copied
  by_cases isPending : entry.pendingCancelPromptAttemptId = some promptAttemptId
  · cases parked : entry.promptCancellationRestoreState with
    | none =>
      simpa [StoreEntry.restorePromptCancellation, same, showing, isPending, parked] using replays
    | some restoreState =>
      have restored := replays.notify
        { entry with
          activePromptAttemptId := some promptAttemptId
          activeRunId := restoreState.activeRunId
          pendingCancelPromptAttemptId := none
          promptCancellationRestoreState := none
          pendingUserInputRequestIds := restoreState.pendingUserInputRequestIds
          chatState := restoreState.chatState } rfl rfl rfl lastSnapshot
      simpa [StoreEntry.restorePromptCancellation, same, showing, isPending, parked] using restored
  · simpa [StoreEntry.restorePromptCancellation, same, showing, isPending] using replays

theorem setElicitationStatus (elicitationId : String) (status : ElicitationStatus) :
    Replays (trace ++ listEvents entry (.elicitationStatus elicitationId status))
      (entry.setElicitationStatus elicitationId status).1
      (copying.setElicitationStatus elicitationId status).1 := by
  obtain ⟨lastSnapshot, same, shown⟩ := replays.copied
  have sameAdapter : copying.adapter = entry.adapter := by
    rw [same]
    rfl
  have tells := AdapterState.tells_applyElicitationStatus elicitationId status entry.adapter
  unfold StoreEntry.setElicitationStatus
  rw [sameAdapter]
  by_cases found : entry.adapter.messages.any fun message =>
      message.content.any (MessageContent.isElicitation elicitationId)
  · obtain ⟨adapter, applied⟩ : ∃ adapter : AdapterState ι,
        entry.adapter.applyElicitationStatus elicitationId status = adapter.messagesChange := by
      rw [AdapterState.applyElicitationStatus, if_pos found]
      exact ⟨_, rfl⟩
    simp only [listEvents, applied] at tells ⊢
    have copied := replays.copies { entry with adapter } tells rfl rfl lastSnapshot
    have shown := replays.changes_showing { entry with adapter } tells rfl lastSnapshot
    have told := copied.notify
      (applyChatStateChanges { entry with adapter } [.messages adapter.messages])
      rfl rfl rfl lastSnapshot
    rw [same]
    exact (congrArg (fun entry => entry.notify.1) shown).symm ▸ told
  · have applied : entry.adapter.applyElicitationStatus elicitationId status =
        (entry.adapter, []) := by
      rw [AdapterState.applyElicitationStatus, if_neg found]
    simp only [listEvents, applied, isEmpty_nil, if_true, append_nil]
    have beside : ({ copying with adapter := entry.adapter } : StoreEntry ι) = copying := by
      rw [← sameAdapter]
    rw [beside]
    exact replays

theorem setChatState (chatState : ChatState) :
    Replays trace (entry.setChatState chatState).1 (copying.setChatState chatState).1 := by
  obtain ⟨lastSnapshot, rfl, -⟩ := replays.copied
  exact replays.notify
    { entry with
      progressMessage := if chatState = .idle then none else entry.progressMessage
      chatState } rfl rfl rfl lastSnapshot

/-! ### Loads -/

theorem failSessionLoad (sessionLoadError : String) :
    Replays trace (entry.failSessionLoad sessionLoadError).1
      (copying.failSessionLoad sessionLoadError).1 := by
  obtain ⟨lastSnapshot, rfl, -⟩ := replays.copied
  exact replays.notify
    { entry with
      sessionLoadError := some sessionLoadError
      progressMessage := none
      chatState := .idle } rfl rfl rfl lastSnapshot

end

theorem started (entry : StoreEntry ι) :
    Replays trace entry.startSessionLoad.1 entry.startSessionLoad.1 := by
  let started : StoreEntry ι :=
    { entry.resetReplayState with
      sessionLoadError := none
      progressMessage := none
      chatState := .loadingConversation }
  have remembers : started.Remembers := fun id member => by
    simp [started, resetReplayState] at member
  exact of_remembers _ remembers (fun _ => rfl) started.lastSnapshot

theorem startSessionLoad (replays : Replays trace entry copying) :
    Replays (trace ++ [.copied]) entry.startSessionLoad.1 copying.startSessionLoad.1 := by
  obtain ⟨lastSnapshot, rfl, -⟩ := replays.copied
  exact started entry

theorem finishSessionLoad (replays : Replays trace entry copying) (session : Session ι) :
    Replays (trace ++ [.copied]) (entry.finishSessionLoad session).1
      (copying.finishSessionLoad session).1 := by
  obtain ⟨lastSnapshot, rfl, -⟩ := replays.copied
  let loaded : StoreEntry ι :=
    { entry with
      session := some session
      sessionLoadError := none
      progressMessage := none
      messages := entry.adapter.messages }
  have retained : loaded.retainPendingLocalSteerMessageIds = loaded :=
    retainPendingLocalSteerMessageIds_eq fun id member => (replays.remembers id member).2
  let finished : StoreEntry ι :=
    { loaded.retainPendingLocalSteerMessageIds with
      chatState := if entry.activePromptAttemptId.isSome then .streaming else .idle }
  have remembers : finished.Remembers := by
    have before : loaded.Remembers := replays.remembers
    rw [← retained] at before
    exact before
  exact of_remembers _ remembers (fun _ => rfl) lastSnapshot

/-! ### Steps that read the list -/

theorem addPendingLocalSteerMessage (replays : Replays trace entry copying) {message : Message ι}
    (reads : present message.id = none ∨ entry.messages = entry.adapter.messages) :
    Replays trace (entry.addPendingLocalSteerMessage message).1
      (copying.addPendingLocalSteerMessage message).1 := by
  obtain ⟨lastSnapshot, rfl, -⟩ := replays.copied
  have unchanged := replays.notify entry rfl rfl rfl lastSnapshot
  unfold addPendingLocalSteerMessage
  cases isPresent : present message.id with
  | none => exact unchanged
  | some id =>
    have same := reads.resolve_left (by simp [isPresent])
    have ownId : message.id = some id ∧ id ≠ "" := by
      simpa [present, Option.filter_eq_some_iff] using isPresent
    have shown : (entry.showing entry.adapter.messages lastSnapshot).messages =
        entry.messages := same.symm
    dsimp only
    rw [shown]
    split
    · exact unchanged
    · have appended : ∀ pending ⊆ insert id entry.pendingLocalSteerMessageIds,
          ∀ other ∈ pending, other ≠ "" ∧
            ∃ found ∈ entry.messages ++ [message], found.id = some other := by
        intro pending subset other member
        rcases Finset.mem_insert.mp (subset member) with rfl | before
        · exact ⟨ownId.2, message, by simp, ownId.1⟩
        · obtain ⟨isId, found, inAdapter, sameId⟩ := replays.remembers other before
          exact ⟨isId, found, mem_append_left _ (same ▸ inAdapter), sameId⟩
      by_cases early : id ∈ entry.preConfirmedSteerMessageIds
      · let added : StoreEntry ι := withNewAdapter
          { entry with
            messages := entry.messages ++ [message]
            preConfirmedSteerMessageIds := entry.preConfirmedSteerMessageIds.erase id }
        have remembers : added.Remembers := appended _ (Finset.subset_insert _ _)
        have shownAdded := of_remembers trace remembers (fun _ => rfl) lastSnapshot
        simpa [early, showing, added, withNewAdapter, confirmedLocalSteerTexts] using shownAdded
      · let added : StoreEntry ι := withNewAdapter
          { entry with
            messages := entry.messages ++ [message]
            pendingLocalSteerMessageIds := insert id entry.pendingLocalSteerMessageIds }
        have remembers : added.Remembers := appended _ (Finset.Subset.refl _)
        have shownAdded := of_remembers trace remembers (fun _ => rfl) lastSnapshot
        simpa [early, showing, added, withNewAdapter, confirmedLocalSteerTexts] using shownAdded

theorem discardPendingLocalSteerMessages_showing (discards : DiscardsCurrent entry)
    (lastSnapshot : Option (ChatSessionSnapshot ι)) :
    (entry.showing entry.adapter.messages lastSnapshot).discardPendingLocalSteerMessages =
      entry.discardPendingLocalSteerMessages.showing
        entry.discardPendingLocalSteerMessages.adapter.messages lastSnapshot := by
  unfold discardPendingLocalSteerMessages
  by_cases none : entry.pendingLocalSteerMessageIds = ∅
  · simp [showing, none]
  · have same := discards.resolve_left none
    simp [showing, none, ← same]
    rfl

section

variable (replays : Replays trace entry copying)
include replays

theorem discarded : entry.discardPendingLocalSteerMessages.Remembers ∧
      (trace.getLast? ≠ some .heldBack →
        entry.discardPendingLocalSteerMessages.messages =
          entry.discardPendingLocalSteerMessages.adapter.messages) := by
  unfold discardPendingLocalSteerMessages
  split
  · exact ⟨replays.remembers, replays.current⟩
  · exact ⟨fun id member => by simp [withNewAdapter] at member, fun _ => rfl⟩

/-- A step that discards pending steer messages and sets nothing that they touch. -/
theorem discard (discards : DiscardsCurrent entry) (change : StoreEntry ι → StoreEntry ι)
    (beside : ∀ entry messages lastSnapshot,
      change (showing messages lastSnapshot entry) = (change entry).showing messages lastSnapshot)
    (messages : ∀ entry, (change entry).messages = entry.messages)
    (adapter : ∀ entry, (change entry).adapter = entry.adapter)
    (pending : ∀ entry, (change entry).pendingLocalSteerMessageIds =
      entry.pendingLocalSteerMessageIds) :
    Replays trace (change entry.discardPendingLocalSteerMessages).notify.1
      (change copying.discardPendingLocalSteerMessages).notify.1 := by
  obtain ⟨lastSnapshot, same, -⟩ := replays.copied
  have kept := replays.discarded
  have remembers : (change entry.discardPendingLocalSteerMessages).Remembers := by
    intro id member
    rw [adapter]
    exact kept.1 id (pending _ ▸ member)
  rw [same, discardPendingLocalSteerMessages_showing discards, beside]
  have discarded := of_remembers trace remembers
    (fun current => by rw [messages, adapter]; exact kept.2 current) lastSnapshot
  rwa [adapter] at discarded

theorem startPromptAttempt (discards : DiscardsCurrent entry) (promptAttemptId : Nat) :
    Replays trace (entry.startPromptAttempt promptAttemptId).1
      (copying.startPromptAttempt promptAttemptId).1 :=
  replays.discard discards
    (fun entry =>
      { entry with
        activePromptAttemptId := some promptAttemptId
        activeRunId := none
        pendingCancelPromptAttemptId := none
        promptCancellationRestoreState := none
        pendingUserInputRequestIds := ∅
        chatState := .streaming
        sessionLoadError := none
        notifications := []
        progressMessage := none })
    (fun _ _ _ => rfl) (fun _ => rfl) (fun _ => rfl) (fun _ => rfl)

theorem startPromptCancellation (promptAttemptId : Nat)
    (discards : entry.activePromptAttemptId = some promptAttemptId → DiscardsCurrent entry) :
    Replays trace (((entry.startPromptCancellation promptAttemptId).map Prod.fst).getD entry)
      (((copying.startPromptCancellation promptAttemptId).map Prod.fst).getD copying) := by
  obtain ⟨lastSnapshot, same, -⟩ := replays.copied
  have active : copying.activePromptAttemptId = entry.activePromptAttemptId := by
    rw [same]
    rfl
  have parked : copying.activeRunId = entry.activeRunId ∧ copying.chatState = entry.chatState ∧
      copying.pendingUserInputRequestIds = entry.pendingUserInputRequestIds := by
    rw [same]
    exact ⟨rfl, rfl, rfl⟩
  unfold StoreEntry.startPromptCancellation
  rw [active]
  by_cases isActive : entry.activePromptAttemptId = some promptAttemptId
  · rw [if_neg (not_not.mpr isActive), if_neg (not_not.mpr isActive), parked.1, parked.2.1,
      parked.2.2]
    exact replays.discard (discards isActive)
      (fun discarded =>
        { discarded with
          promptCancellationRestoreState := some
            { activeRunId := entry.activeRunId
              chatState := entry.chatState
              pendingUserInputRequestIds := entry.pendingUserInputRequestIds }
          activePromptAttemptId := none
          activeRunId := none
          pendingCancelPromptAttemptId := some promptAttemptId
          pendingUserInputRequestIds := ∅
          progressMessage := none
          chatState := .idle })
      (fun _ _ _ => rfl) (fun _ => rfl) (fun _ => rfl) (fun _ => rfl)
  · simpa [isActive] using replays

theorem finishPrompt (promptAttemptId : Nat)
    (discards : entry.activePromptAttemptId = some promptAttemptId → DiscardsCurrent entry)
    (error : Option String) : Replays trace (entry.finishPrompt promptAttemptId error).1.1
      (copying.finishPrompt promptAttemptId error).1.1 := by
  obtain ⟨lastSnapshot, same, -⟩ := replays.copied
  have active : copying.activePromptAttemptId = entry.activePromptAttemptId := by
    rw [same]
    rfl
  unfold StoreEntry.finishPrompt finishPromptAttemptIfCurrent
  rw [active]
  by_cases isActive : entry.activePromptAttemptId = some promptAttemptId
  · rw [if_neg (not_not.mpr isActive), if_neg (not_not.mpr isActive)]
    exact replays.discard (discards isActive)
      (fun discarded =>
        { discarded with
          activePromptAttemptId := none
          activeRunId := none
          pendingCancelPromptAttemptId := none
          promptCancellationRestoreState := none
          pendingUserInputRequestIds := ∅
          progressMessage := none
          chatState := .idle
          sessionLoadError := error })
      (fun _ _ _ => rfl) (fun _ => rfl) (fun _ => rfl) (fun _ => rfl)
  · simpa [isActive] using replays

/-- Both stores show the same messages. -/
theorem setMessages (messages : List (Message ι)) :
    Replays trace (entry.setMessages messages).1 (copying.setMessages messages).1 ∧
      (entry.setMessages messages).1.messages =
        (entry.setMessages messages).1.adapter.messages := by
  obtain ⟨lastSnapshot, rfl, -⟩ := replays.copied
  have remembers : (withNewAdapter (retainPendingLocalSteerMessageIds
      { entry with messages })).Remembers := by
    intro id member
    obtain ⟨before, found⟩ := Finset.mem_filter.mp member
    obtain ⟨message, inList, sameId⟩ := any_eq_true.mp found
    exact ⟨(replays.remembers id before).1, message, inList, by simpa using sameId⟩
  exact ⟨of_remembers trace remembers (fun _ => rfl) lastSnapshot, rfl⟩

/-- The snapshot of the store that copies shows the messages of the adapter. -/
theorem messages_snapshot : copying.snapshot.messages = entry.adapter.messages := by
  obtain ⟨lastSnapshot, rfl, shown⟩ := replays.copied
  unfold snapshot
  split
  · next last _ isLast => exact shown last isLast
  · rfl

theorem promptSettles (promptAttemptId : Nat) (outcome : SettledPrompt ι)
    (reads : ReadsCurrent entry (.promptSettles promptAttemptId outcome)) :
    Replays trace (entry.settlePrompt promptAttemptId (outcome.outcome entry)).1.1
      (copying.settlePrompt promptAttemptId (outcome.outcome copying)).1.1 := by
  obtain ⟨lastSnapshot, same, -⟩ := replays.copied
  have active : copying.activePromptAttemptId = entry.activePromptAttemptId := by
    rw [same]
    rfl
  have pending : copying.pendingCancelPromptAttemptId = entry.pendingCancelPromptAttemptId := by
    rw [same]
    rfl
  have cleared := replays.clearPromptCancellation promptAttemptId
  by_cases isPending : entry.pendingCancelPromptAttemptId = some promptAttemptId
  · simpa [settlePrompt, StoreEntry.clearPromptCancellation, pending, isPending, told] using cleared
  · have discards := reads isPending
    cases outcome with
    | resolved =>
      simpa [settlePrompt, StoreEntry.clearPromptCancellation, pending, isPending,
        SettledPrompt.outcome] using replays.finishPrompt promptAttemptId discards none
    | rejected error =>
      simpa [settlePrompt, StoreEntry.clearPromptCancellation, pending, isPending,
        SettledPrompt.outcome] using replays.finishPrompt promptAttemptId discards _
    | creditsExhausted notice =>
      by_cases isActive : entry.activePromptAttemptId = some promptAttemptId
      · have list : copying.snapshot.messages = entry.snapshot.messages :=
          replays.messages_snapshot.trans (discards isActive).symm
        obtain ⟨shown, current⟩ := replays.setMessages (entry.snapshot.messages ++ [notice])
        have finished := shown.finishPrompt promptAttemptId (fun _ => .inr current) none
        simpa [settlePrompt, StoreEntry.clearPromptCancellation, pending, isPending, active,
          isActive, SettledPrompt.outcome, list, told] using finished
      · simpa [settlePrompt, StoreEntry.clearPromptCancellation, pending, isPending, active,
          isActive, SettledPrompt.outcome] using replays

/-! ### Runs -/

theorem sessionNotification (host : AdapterHost ι) (update : SessionUpdate ι) :
    Replays (trace ++ listEvents entry (.sessionNotification host update))
      (entry.applyAcpSessionNotification host update).1
      (copying.copySessionNotification host update).1 := by
  obtain ⟨lastSnapshot, same, -⟩ := replays.copied
  have notified := replays.notified
    { entry with
      progressMessage := if shouldClearProgressMessage update then none else entry.progressMessage
      adapter := (entry.adapter.apply host update).1 }
    (AdapterState.tells_apply host entry.adapter update) rfl rfl Iff.rfl lastSnapshot
  rw [same]
  exact notified

theorem gooseSessionNotification (host : AdapterHost ι) (update : GooseSessionUpdate ι) :
    Replays (trace ++ listEvents entry (.gooseSessionNotification host update))
      (entry.applyAcpGooseSessionNotification host update).1
      (copying.copyGooseSessionNotification host update).1 := by
  obtain ⟨lastSnapshot, same, -⟩ := replays.copied
  have notified := replays.notified
    { entry with adapter := (entry.adapter.applyGoose host update).1 }
    (AdapterState.tells_applyGoose host entry.adapter update) rfl rfl Iff.rfl lastSnapshot
  rw [same]
  exact notified

theorem applyPermissionRequest (now : Int) (request : PermissionRequest ι) :
    Replays (trace ++ [.copied]) (entry.applyPermissionRequest now request).1
      (copying.applyPermissionRequest now request).1 := by
  obtain ⟨lastSnapshot, same, -⟩ := replays.copied
  have adapter : copying.adapter = entry.adapter := by
    rw [same]
    rfl
  unfold StoreEntry.applyPermissionRequest
  rw [adapter]
  refine replays.awaitUserInput _ (AdapterState.tells_applyPermissionRequest _ _ _) ?_
  unfold AdapterState.applyPermissionRequest
  split <;> rfl

theorem applyElicitationRequest (now : Int) (request : ElicitationRequest ι) :
    Replays (trace ++ [.copied]) (entry.applyElicitationRequest now request).1
      (copying.applyElicitationRequest now request).1 := by
  obtain ⟨lastSnapshot, same, -⟩ := replays.copied
  have adapter : copying.adapter = entry.adapter := by
    rw [same]
    rfl
  unfold StoreEntry.applyElicitationRequest
  rw [adapter]
  refine replays.awaitUserInput _ (AdapterState.tells_applyElicitationRequest _ _ _) ?_
  unfold AdapterState.applyElicitationRequest
  split <;> rfl

theorem run {action : LoadAction ι} (reads : ReadsCurrent entry action) :
    Replays (trace ++ action.listEvents entry)
      (action.run applyAcpSessionNotification applyAcpGooseSessionNotification entry)
      (action.run copySessionNotification copyGooseSessionNotification copying) := by
  have silent {entry' copying' : StoreEntry ι} (kept : Replays trace entry' copying') :
      Replays (trace ++ []) entry' copying' := by
    rwa [append_nil]
  cases action with
  | sessionNotification host update => exact replays.sessionNotification host update
  | gooseSessionNotification host update => exact replays.gooseSessionNotification host update
  | permissionRequest now request => exact replays.applyPermissionRequest now request
  | elicitationRequest now request => exact replays.applyElicitationRequest now request
  | elicitationStatus elicitationId status =>
    exact replays.setElicitationStatus elicitationId status
  | resolveUserInputRequest request => exact silent (replays.resolveUserInputRequest request)
  | setChatState chatState => exact silent (replays.setChatState chatState)
  | addPendingLocalSteerMessage message =>
    exact silent (replays.addPendingLocalSteerMessage reads)
  | startPromptAttempt promptAttemptId =>
    exact silent (replays.startPromptAttempt reads promptAttemptId)
  | startPromptCancellation promptAttemptId =>
    exact silent (replays.startPromptCancellation promptAttemptId reads)
  | clearPromptCancellation promptAttemptId =>
    exact silent (replays.clearPromptCancellation promptAttemptId)
  | restorePromptCancellation promptAttemptId =>
    exact silent (replays.restorePromptCancellation promptAttemptId)
  | promptSettles promptAttemptId outcome =>
    exact silent (replays.promptSettles promptAttemptId outcome reads)
  | startSessionLoad => exact replays.startSessionLoad
  | finishSessionLoad session => exact replays.finishSessionLoad session
  | failSessionLoad sessionLoadError => exact silent (replays.failSessionLoad sessionLoadError)

end

end Replays

theorem losesNothing_of_replays {config : Config (LoadingSession ι) ListEvent}
    (replays : Replays config.trace config.state.entry config.state.copying) :
    LosesNothing config := by
  obtain ⟨lastSnapshot, same, -⟩ := replays.copied
  exact
    { tokenState := by rw [same]; rfl
      notifications := by rw [same]; rfl
      pendingLocalSteerMessageIds := by rw [same]; rfl
      preConfirmedSteerMessageIds := by rw [same]; rfl
      messages := by
        intro current
        rw [same]
        exact replays.current current }

/-- In a run in which no step reads the list while it lags behind the adapter, the session
is the one of the store that copies, once the messages held back are copied. -/
theorem losesNothing_of_reaches {entry : StoreEntry ι}
    {config : Config (LoadingSession ι) ListEvent}
    (reaches : Reaches LoadingSession.step readsCurrent (loadingSession entry) config) :
    LosesNothing config := by
  refine losesNothing_of_replays (reaches.invariant
    (fun config => Replays config.trace config.state.entry config.state.copying)
    (Replays.started entry) ?_)
  rintro ⟨session, trace⟩ ⟨next, _⟩ action _ replays advanced reads
  obtain ⟨events, stepped, rfl⟩ := advance_eq_some_iff.mp advanced
  cases stepped
  exact replays.run reads

instance [DecidableEq ι] (entry : StoreEntry ι) : Decidable (DiscardsCurrent entry) :=
  inferInstanceAs (Decidable (_ ∨ _))

instance [DecidableEq ι] (entry : StoreEntry ι) (action : LoadAction ι) :
    Decidable (ReadsCurrent entry action) := by
  cases action with
  | promptSettles promptAttemptId outcome =>
    cases outcome <;> unfold ReadsCurrent <;> infer_instance
  | _ => unfold ReadsCurrent; infer_instance

instance [DecidableEq ι] (config next : Config (LoadingSession ι) ListEvent)
    (action : LoadAction ι) : Decidable (readsCurrent config action next) :=
  inferInstanceAs (Decidable (ReadsCurrent config.state.entry action))

/-- The agent says something. -/
def agentSays (text : String) : LoadAction Unit :=
  .sessionNotification { now := 0, toolResult := fun _ _ => .error "" }
    (.agentMessageChunk { content := .text text none })

def loadedSession : Session Unit :=
  ⟨"session", ()⟩

/-- A message that steers the agent. -/
def steered : LoadAction Unit :=
  .addPendingLocalSteerMessage
    { id := some "steer"
      role := .user
      created := 0
      content := [.text "Stop" none]
      metadata := { steer := true } }

/-- A steer message is added to the list of a loaded session, and the agent goes on. -/
def replayedRun : List (LoadAction Unit) :=
  [agentSays "Hello", .finishSessionLoad loadedSession, steered, agentSays "Well"]

theorem losesNothing_replayedRun :
    ∃ config, exec LoadingSession.step (Config.initial (loadingSession {})) replayedRun =
        some config ∧
      config.state.entry.messages.map Message.role = [.assistant, .user, .assistant] ∧
      LosesNothing config := by
  obtain ⟨config, executed, roles⟩ : ∃ config ∈ exec LoadingSession.step
      (Config.initial (loadingSession {})) replayedRun,
      config.state.entry.messages.map Message.role = [.assistant, .user, .assistant] := by
    decide +kernel
  exact ⟨config, executed, roles, losesNothing_of_reaches
    (reaches_of_exec replayedRun (by decide +kernel) executed)⟩

def anyRead : Guard (LoadingSession ι) (LoadAction ι) ListEvent :=
  fun _ _ _ => True

instance (config next : Config (LoadingSession ι) ListEvent) (action : LoadAction ι) :
    Decidable (anyRead config action next) :=
  inferInstanceAs (Decidable True)

/-- A steer message is added while a replayed message is held back. -/
def steeredRun : List (LoadAction Unit) :=
  [agentSays "Hello", steered, .finishSessionLoad loadedSession]

/-- The replayed message is lost. -/
theorem not_losesNothing_steeredRun :
    ∃ config, Reaches LoadingSession.step anyRead (loadingSession ({} : StoreEntry Unit)) config ∧
      config.state.entry.messages.length = 1 ∧ config.state.copying.messages.length = 2 ∧
      ¬LosesNothing config := by
  obtain ⟨config, reaches, last, list, copied⟩ := exists_reaches_of_exec LoadingSession.step
    anyRead (loadingSession ({} : StoreEntry Unit))
    (fun config => config.trace.getLast? = some .copied ∧
      config.state.entry.messages.length = 1 ∧ config.state.copying.messages.length = 2)
    steeredRun (by decide +kernel) (by decide +kernel)
  refine ⟨config, reaches, list, copied, fun same => ?_⟩
  have messages := same.messages (by simp [last])
  rw [messages, copied] at list
  exact absurd list (by decide)

end Obelus.Acp
