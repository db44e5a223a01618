import Obelus.Acp.UserInput

/-!
# The chat waits for the user while a request is open

The ids in the entry, the requests in the maps and the ids that a cancellation parks fit
together as long as requests end with the waiting.
-/

namespace Obelus.Acp

open Obelus.Data (Ledger JsMap)
open Obelus.Transition

variable {ι : Type}

/-- How the attempt of a session and its pending requests fit.  `arrival` gives the
attempt in which a pending request arrived. -/
structure AsksUser (attempts : Nat) (arrival : UserInputRequestId → Option (Option Nat))
    (state : AttemptState) : Prop where
  notLoading : state.chatState ≠ .loadingConversation
  activeMade : ∀ attempt, state.activePromptAttemptId = some attempt → attempt < attempts
  pendingCancelMade : ∀ attempt, state.pendingCancelPromptAttemptId = some attempt →
    attempt < attempts
  exclusive : state.activePromptAttemptId.isSome → state.pendingCancelPromptAttemptId = none
  arrivedMade : ∀ request attempt, arrival request = some (some attempt) → attempt < attempts
  waiting : state.chatState = .waitingForUserInput → ∃ request, (arrival request).isSome
  asked : state.activePromptAttemptId.isSome →
    (state.chatState = .waitingForUserInput ↔ state.pendingUserInputRequestIds ≠ ∅)
  awaited : state.activePromptAttemptId.isSome →
    ∀ request ∈ state.pendingUserInputRequestIds, (arrival request).isSome
  own : ∀ request attempt, arrival request = some (some attempt) →
    state.activePromptAttemptId = some attempt → request ∈ state.pendingUserInputRequestIds
  parked : ∀ restoreState, state.promptCancellationRestoreState = some restoreState →
    restoreState.chatState ≠ .loadingConversation ∧
      (restoreState.chatState = .waitingForUserInput ↔
        restoreState.pendingUserInputRequestIds ≠ ∅)
  parkedOwn : ∀ restoreState, state.promptCancellationRestoreState = some restoreState →
    ∀ request attempt, arrival request = some (some attempt) →
      state.pendingCancelPromptAttemptId = some attempt →
      request ∈ restoreState.pendingUserInputRequestIds

namespace AsksUser

variable {attempts : Nat} {arrival : UserInputRequestId → Option (Option Nat)}
  {state : AttemptState}

theorem ended (arrivedMade : ∀ request attempt, arrival request = some (some attempt) →
    attempt < attempts) : AsksUser attempts arrival AttemptState.ended := by
  constructor
  case arrivedMade => exact arrivedMade
  all_goals simp [AttemptState.ended]

section

variable (asks : AsksUser attempts arrival state)
include asks

theorem start : AsksUser (attempts + 1) arrival
      { chatState := .streaming
        activePromptAttemptId := some attempts
        pendingCancelPromptAttemptId := none
        promptCancellationRestoreState := none
        pendingUserInputRequestIds := ∅ } where
  notLoading := by simp
  activeMade := by simp
  pendingCancelMade := by simp
  exclusive := by simp
  arrivedMade := fun request attempt arrived =>
    Nat.lt_succ_of_lt (asks.arrivedMade request attempt arrived)
  waiting := by simp
  asked := by simp
  awaited := by simp
  own := by
    -- No request has arrived in the new attempt.
    rintro request _ arrived ⟨⟩
    exact absurd (asks.arrivedMade request _ arrived) (Nat.lt_irrefl _)
  parked := by simp
  parkedOwn := by simp

/-- The cancellation parks the requests of the attempt. -/
theorem park {attempt : Nat} {activeRunId : Option String}
    (isActive : state.activePromptAttemptId = some attempt) : AsksUser attempts arrival
      { chatState := .idle
        activePromptAttemptId := none
        pendingCancelPromptAttemptId := some attempt
        promptCancellationRestoreState := some
          { activeRunId
            chatState := state.chatState
            pendingUserInputRequestIds := state.pendingUserInputRequestIds }
        pendingUserInputRequestIds := ∅ } where
  notLoading := by simp
  activeMade := by simp
  pendingCancelMade := by
    rintro _ ⟨⟩
    exact asks.activeMade attempt isActive
  exclusive := by simp
  arrivedMade := asks.arrivedMade
  waiting := by simp
  asked := by simp
  awaited := by simp
  own := by simp
  parked := by
    rintro _ ⟨⟩
    exact ⟨asks.notLoading, asks.asked (by simp [isActive])⟩
  parkedOwn := by
    rintro _ ⟨⟩ request _ arrived ⟨⟩
    exact asks.own request attempt arrived isActive

theorem clear : AsksUser attempts arrival
      { state with
        pendingCancelPromptAttemptId := none
        promptCancellationRestoreState := none } :=
  { asks with
    pendingCancelMade := by simp
    exclusive := by simp
    parked := by simp
    parkedOwn := by simp }

/-- The parked requests are back, and each is still pending. -/
theorem restore {attempt : Nat} {restoreState : PromptCancellationRestoreState}
    (isPending : state.pendingCancelPromptAttemptId = some attempt)
    (isParked : state.promptCancellationRestoreState = some restoreState)
    (still : ∀ request ∈ restoreState.pendingUserInputRequestIds, (arrival request).isSome) :
    AsksUser attempts arrival
      { chatState := restoreState.chatState
        activePromptAttemptId := some attempt
        pendingCancelPromptAttemptId := none
        promptCancellationRestoreState := none
        pendingUserInputRequestIds := restoreState.pendingUserInputRequestIds } where
  notLoading := (asks.parked restoreState isParked).1
  activeMade := by
    rintro _ ⟨⟩
    exact asks.pendingCancelMade attempt isPending
  pendingCancelMade := by simp
  exclusive := by simp
  arrivedMade := asks.arrivedMade
  waiting := by
    intro waits
    obtain ⟨request, member⟩ := Finset.nonempty_iff_ne_empty.mpr
      ((asks.parked restoreState isParked).2.mp waits)
    exact ⟨request, still request member⟩
  asked := fun _ => (asks.parked restoreState isParked).2
  awaited := fun _ => still
  own := by
    rintro request _ arrived ⟨⟩
    exact asks.parkedOwn restoreState isParked request attempt arrived isPending
  parked := by simp
  parkedOwn := by simp

/-- A request arrives.  One with the same id is replaced. -/
theorem ask (request : UserInputRequestId) : AsksUser attempts
      (fun other => if other = request then some state.activePromptAttemptId else arrival other)
      { state with
        chatState := .waitingForUserInput
        pendingUserInputRequestIds := insert request state.pendingUserInputRequestIds } where
  notLoading := by simp
  activeMade := asks.activeMade
  pendingCancelMade := asks.pendingCancelMade
  exclusive := asks.exclusive
  arrivedMade := by
    intro other attempt arrived
    split at arrived
    · exact asks.activeMade attempt (Option.some.inj arrived)
    · exact asks.arrivedMade other attempt arrived
  waiting := fun _ => ⟨request, by simp⟩
  asked := by simp
  awaited := by
    intro isActive other member
    split
    · rfl
    · next differs =>
      exact asks.awaited isActive other (Finset.mem_of_mem_insert_of_ne member differs)
  own := by
    intro other attempt arrived isActive
    split at arrived
    · next same => exact same ▸ Finset.mem_insert_self _ _
    · exact Finset.mem_insert_of_mem (asks.own other attempt arrived isActive)
  parked := asks.parked
  parkedOwn := by
    intro restoreState isParked other attempt arrived isPending
    split at arrived
    · have none := asks.exclusive (by simp [Option.some.inj arrived])
      simp [none] at isPending
    · exact asks.parkedOwn restoreState isParked other attempt arrived isPending

/-- Requests end while the chat does not wait. -/
theorem endAll (doesNotWait : state.chatState ≠ .waitingForUserInput) :
    AsksUser attempts (fun _ => none) state where
  notLoading := asks.notLoading
  activeMade := asks.activeMade
  pendingCancelMade := asks.pendingCancelMade
  exclusive := asks.exclusive
  arrivedMade := by simp
  waiting := fun waits => absurd waits doesNotWait
  asked := asks.asked
  awaited := by
    intro isActive request member
    have some : state.pendingUserInputRequestIds ≠ ∅ := Finset.ne_empty_of_mem member
    exact absurd ((asks.asked isActive).mpr some) doesNotWait
  own := by simp
  parked := asks.parked
  parkedOwn := by simp

/-- A request ends, and another one stays pending if the chat waits and no attempt is
active. -/
theorem resolve (request : UserInputRequestId)
    (leaves : state.activePromptAttemptId = none → state.chatState = .waitingForUserInput →
      ∃ other, other ≠ request ∧ (arrival other).isSome) :
    AsksUser attempts (fun other => if other = request then none else arrival other)
      (state.resolve request) := by
  have arrivedBefore {other : UserInputRequestId} {attempt : Nat}
      (arrived : (if other = request then none else arrival other) = some (some attempt)) :
      other ≠ request ∧ arrival other = some (some attempt) := by
    split at arrived
    · cases arrived
    · next differs => exact ⟨differs, arrived⟩
  have still : state.activePromptAttemptId.isSome →
      ∀ other ∈ state.pendingUserInputRequestIds.erase request,
        (if other = request then none else arrival other).isSome := by
    intro isActive other member
    obtain ⟨differs, isAsked⟩ := Finset.mem_erase.mp member
    rw [if_neg differs]
    exact asks.awaited isActive other isAsked
  have owned : ∀ other attempt, (if other = request then none else arrival other) =
      some (some attempt) → state.activePromptAttemptId = some attempt →
      other ∈ state.pendingUserInputRequestIds.erase request := by
    intro other attempt arrived isActive
    obtain ⟨differs, before⟩ := arrivedBefore arrived
    exact Finset.mem_erase.mpr ⟨differs, asks.own other attempt before isActive⟩
  unfold AttemptState.resolve
  dsimp only
  split
  · next last =>
    exact
      { notLoading := by simp
        activeMade := asks.activeMade
        pendingCancelMade := asks.pendingCancelMade
        exclusive := asks.exclusive
        arrivedMade := fun other attempt arrived =>
          asks.arrivedMade other attempt (arrivedBefore arrived).2
        waiting := by simp
        asked := by simp [last.2.2]
        awaited := still
        own := owned
        parked := asks.parked
        parkedOwn := fun restoreState isParked other attempt arrived =>
          asks.parkedOwn restoreState isParked other attempt (arrivedBefore arrived).2 }
  · next notLast =>
    have askedStill : state.activePromptAttemptId.isSome →
        (state.chatState = .waitingForUserInput ↔
          state.pendingUserInputRequestIds.erase request ≠ ∅) := by
      intro isActive
      constructor
      · intro waits none
        exact notLast ⟨isActive, waits, none⟩
      · intro some
        refine (asks.asked isActive).mpr fun none => some ?_
        rw [none, Finset.erase_empty]
    exact
      { notLoading := asks.notLoading
        activeMade := asks.activeMade
        pendingCancelMade := asks.pendingCancelMade
        exclusive := asks.exclusive
        arrivedMade := fun other attempt arrived =>
          asks.arrivedMade other attempt (arrivedBefore arrived).2
        waiting := by
          intro waits
          cases active : state.activePromptAttemptId with
          | none =>
            obtain ⟨other, differs, isPending⟩ := leaves active waits
            exact ⟨other, by rwa [if_neg differs]⟩
          | some attempt =>
            have isActive : state.activePromptAttemptId.isSome := by simp [active]
            obtain ⟨other, member⟩ :=
              Finset.nonempty_iff_ne_empty.mpr ((askedStill isActive).mp waits)
            exact ⟨other, still isActive other member⟩
        asked := askedStill
        awaited := still
        own := owned
        parked := asks.parked
        parkedOwn := fun restoreState isParked other attempt arrived =>
          asks.parkedOwn restoreState isParked other attempt (arrivedBefore arrived).2 }

end

end AsksUser

theorem mem_pendingRequests {session : UserInputSession ι} {request : UserInputRequestId} :
    request ∈ session.pendingRequests ↔ (session.arrival request).isSome := by
  cases request <;>
    simp [UserInputSession.pendingRequests, UserInputSession.arrival, JsMap.keys,
      ← JsMap.mem_entries_iff, Option.isSome_iff_exists]

/-- What every step keeps. -/
structure AsksOnce (session : UserInputSession ι) : Prop where
  asks : AsksUser session.attempts session.arrival session.entry.attemptState
  permissions : session.permissions.Accounted
  elicitations : session.elicitations.Accounted
  recorded : ∀ elicitationId, (session.elicitations.awaiting.get? elicitationId).isSome →
    elicitationId ∈ session.elicitations.issued

namespace AsksOnce

variable {session : UserInputSession ι}

theorem waitsForUser (keeps : AsksOnce session) : WaitsForUser session where
  onlyPending := by
    intro waits none
    obtain ⟨request, isPending⟩ := keeps.asks.waiting waits
    have member := mem_pendingRequests.mpr isPending
    simp [none] at member
  whilePending := by
    intro request promptAttemptId arrived isActive
    have member := keeps.asks.own request promptAttemptId arrived isActive
    have active : session.entry.attemptState.activePromptAttemptId.isSome := by
      simp [StoreEntry.attemptState, isActive]
    exact (keeps.asks.asked active).mpr (Finset.ne_empty_of_mem member)
  permissionsOnce := keeps.permissions
  elicitationsOnce := keeps.elicitations

theorem snapshot (keeps : AsksOnce session) :
    session.entry.snapshot = session.entry.toChatSessionSnapshot :=
  StoreEntry.snapshot_of_ne_loading keeps.asks.notLoading

/-- A step of the entry alone. -/
theorem withEntry (keeps : AsksOnce session) {entry : StoreEntry ι}
    (asks : AsksUser session.attempts session.arrival entry.attemptState) :
    AsksOnce { session with entry } :=
  { keeps with asks }

theorem arrival_cancelRequests (session : UserInputSession ι) :
    session.cancelRequests.arrival = fun _ => none := by
  funext request
  cases request <;> rfl

theorem attemptState_cancelRequests (session : UserInputSession ι) :
    session.cancelRequests.entry.attemptState = session.entry.attemptState := by
  simp only [UserInputSession.cancelRequests, UserInputSession.cancelAcpElicitationRequests,
    UserInputSession.cancelAcpPermissionRequests]
  generalize session.elicitations.awaiting.keys = elicitationIds
  generalize session.entry = entry
  induction elicitationIds generalizing entry with
  | nil => rfl
  | cons elicitationId rest ih =>
    rw [List.foldl_cons, ih, StoreEntry.attemptState_setElicitationStatus]

section

variable (keeps : AsksOnce session)
include keeps

theorem cancelRequests (doesNotWait : session.entry.chatState ≠ .waitingForUserInput) :
    AsksOnce session.cancelRequests where
  asks := by
    rw [arrival_cancelRequests, attemptState_cancelRequests]
    exact keeps.asks.endAll doesNotWait
  permissions := keeps.permissions.settleAll _
  elicitations := keeps.elicitations.settleAll _
  recorded := by
    intro elicitationId awaits
    cases awaits

theorem stop : AsksOnce session.stop := by
  unfold UserInputSession.stop StoreEntry.stop
  rw [keeps.snapshot]
  cases active : session.entry.activePromptAttemptId with
  | none =>
    refine keeps.withEntry ?_
    have idle : AsksUser session.attempts session.arrival
        { session.entry.attemptState with chatState := .idle } :=
      { keeps.asks with
        notLoading := by simp
        waiting := by simp
        asked := by simp [StoreEntry.attemptState, active] }
    exact idle
  | some promptAttemptId =>
    cases starts : session.entry.startPromptCancellation promptAttemptId with
    | none => simp [StoreEntry.startPromptCancellation, active] at starts
    | some cancelled =>
      obtain ⟨isActive, parks⟩ := StoreEntry.attemptState_startPromptCancellation starts
      have parked : AsksOnce { session with entry := cancelled.1 } :=
        keeps.withEntry (parks ▸ keeps.asks.park isActive)
      have idle : cancelled.1.chatState = .idle := congrArg AttemptState.chatState parks
      simpa [starts, StoreEntry.told] using parked.cancelRequests (by simp [idle])

theorem promptSettles (promptAttemptId : Nat) (outcome : StoreEntry.PromptOutcome ι) :
    AsksOnce { session with
      entry := (session.entry.settlePrompt promptAttemptId outcome).1.1 } := by
  refine keeps.withEntry ?_
  rw [StoreEntry.attemptState_settlePrompt]
  split
  · exact keeps.asks.clear
  · split
    · exact AsksUser.ended keeps.asks.arrivedMade
    · exact keeps.asks

theorem requestAcpPermission (now : Int) (request : PermissionRequest ι)
    (options : List PermissionOption) :
    AsksOnce (session.requestAcpPermission now request options) where
  asks := by
    have asked := keeps.asks.ask (.permission request.toolCallId)
    have arrives : (session.requestAcpPermission now request options).arrival =
        fun other => if other = .permission request.toolCallId then
          some session.entry.activePromptAttemptId else session.arrival other := by
      funext other
      cases other with
      | permission toolCallId =>
        simp only [UserInputSession.arrival, UserInputSession.requestAcpPermission,
          Ledger.issue, JsMap.get?_set, UserInputRequestId.permission.injEq]
        split <;> rfl
      | elicitation elicitationId => simp [UserInputSession.arrival,
          UserInputSession.requestAcpPermission]
    rw [arrives, UserInputSession.requestAcpPermission, StoreEntry.applyPermissionRequest,
      StoreEntry.attemptState_awaitUserInput]
    exact asked
  permissions := keeps.permissions.issue _ fun _ => rfl
  elicitations := keeps.elicitations
  recorded := keeps.recorded

theorem requestAcpElicitation {now : Int} {request : ElicitationRequest ι}
    {asked : UserInputSession ι} (asks : session.requestAcpElicitation now request = some asked) :
    AsksOnce asked := by
  unfold UserInputSession.requestAcpElicitation at asks
  split at asks
  · cases asks
  · next isNew =>
    cases asks
    exact
      { asks := by
          have asked := keeps.asks.ask (.elicitation request.id)
          simp only [StoreEntry.applyElicitationRequest, StoreEntry.attemptState_awaitUserInput]
          refine cast (congrArg (fun arrival => AsksUser session.attempts arrival _) ?_) asked
          funext other
          cases other with
          | permission toolCallId => simp [UserInputSession.arrival]
          | elicitation elicitationId =>
            simp only [UserInputSession.arrival, Ledger.issue, JsMap.get?_set,
              UserInputRequestId.elicitation.injEq]
            split <;> rfl
        permissions := keeps.permissions
        elicitations := keeps.elicitations.issue _ fun awaits =>
          absurd (keeps.recorded _ awaits) isNew
        recorded := by
          intro elicitationId awaits
          simp only [Ledger.issue, JsMap.get?_set] at awaits ⊢
          split at awaits
          · next same => simp [same]
          · exact List.mem_append_left _ (keeps.recorded elicitationId awaits) }

end

/-- The chat waits for another request, if it waits without an attempt. -/
theorem exists_other {request : UserInputRequestId} (leaves : LeavesRequest session request) :
    session.entry.attemptState.activePromptAttemptId = none →
      session.entry.attemptState.chatState = .waitingForUserInput →
      ∃ other, other ≠ request ∧ (session.arrival other).isSome := by
  intro notActive waits
  by_contra none
  refine leaves ⟨notActive, waits, fun other member => ?_⟩
  by_contra differs
  exact none ⟨other, differs, mem_pendingRequests.mp member⟩

theorem resolveAcpPermissionRequest (keeps : AsksOnce session) {toolCallId : String}
    {action : Permission} {resolved : UserInputSession ι}
    (resolves : session.resolveAcpPermissionRequest toolCallId action = some resolved)
    (leaves : LeavesRequest session (.permission toolCallId)) : AsksOnce resolved := by
  obtain ⟨permissions, settles, rfl⟩ := Option.map_eq_some_iff.mp resolves
  refine
    { asks := ?_
      permissions := keeps.permissions.settle settles
      elicitations := keeps.elicitations
      recorded := keeps.recorded }
  obtain ⟨previous, -, rfl⟩ := Option.map_eq_some_iff.mp settles
  have resolved := keeps.asks.resolve (.permission toolCallId) (exists_other leaves)
  simp only [StoreEntry.attemptState_resolveUserInputRequest]
  refine cast (congrArg (fun arrival => AsksUser session.attempts arrival _) ?_) resolved
  funext other
  cases other with
  | permission otherId =>
    simp only [UserInputSession.arrival, JsMap.get?_delete, UserInputRequestId.permission.injEq]
    split <;> rfl
  | elicitation elicitationId => simp [UserInputSession.arrival]

theorem endElicitation (keeps : AsksOnce session) {elicitationId : String}
    {status : ElicitationStatus} {response : CreateElicitationResponse ι}
    {resolved : UserInputSession ι}
    (resolves : session.endElicitation elicitationId status response = some resolved)
    (leaves : LeavesRequest session (.elicitation elicitationId)) : AsksOnce resolved := by
  obtain ⟨elicitations, settles, rfl⟩ := Option.map_eq_some_iff.mp resolves
  obtain ⟨previous, found, rfl⟩ := Option.map_eq_some_iff.mp settles
  refine
    { asks := ?_
      permissions := keeps.permissions
      elicitations := keeps.elicitations.settle settles
      recorded := ?_ }
  · have resolved := keeps.asks.resolve (.elicitation elicitationId) (exists_other leaves)
    simp only [StoreEntry.attemptState_resolveUserInputRequest,
      StoreEntry.attemptState_setElicitationStatus]
    refine cast (congrArg (fun arrival => AsksUser session.attempts arrival _) ?_) resolved
    funext other
    cases other with
    | permission toolCallId => simp [UserInputSession.arrival]
    | elicitation otherId =>
      simp only [UserInputSession.arrival, JsMap.get?_delete, UserInputRequestId.elicitation.injEq]
      split <;> rfl
  · intro otherId awaits
    rw [JsMap.get?_delete] at awaits
    split at awaits
    · cases awaits
    · exact keeps.recorded otherId awaits

theorem step {action : UserInputAction ι} {next : UserInputSession ι}
    {finished : List (Option String)} (keeps : AsksOnce session)
    (stepped : UserInputSession.step session action = some (next, finished))
    (ends : EndsWaiting session action) : AsksOnce next := by
  have orSame {resolved : Option (UserInputSession ι)}
      (isStep : session.orSame resolved = some (next, finished))
      (kept : ∀ session', resolved = some session' → AsksOnce session') : AsksOnce next := by
    cases isStep
    cases resolved with
    | none => exact keeps
    | some session' => exact kept session' rfl
  unfold UserInputSession.step at stepped
  cases action with
  | submitMessage =>
    dsimp only at stepped
    split at stepped
    · next told submits =>
      cases stepped
      obtain ⟨-, -, rfl⟩ := StoreEntry.submitMessage_eq_some submits
      exact { keeps with asks := keeps.asks.start }
    · cases stepped
      exact keeps
  | promptSettles promptAttemptId outcome =>
    dsimp only at stepped
    split at stepped
    · cases stepped
      exact { keeps.promptSettles promptAttemptId outcome with }
    · cases stepped
  | stop =>
    cases stepped
    exact keeps.stop
  | updateMessage messageId editType current =>
    dsimp only at stepped
    split at stepped
    · next created promptAttemptId told cancels =>
      cases stepped
      obtain ⟨cancelled, starts, rfl⟩ := StoreEntry.updateMessage_eq_cancels cancels
      obtain ⟨isActive, parks⟩ := StoreEntry.attemptState_startPromptCancellation starts
      have parked : AsksOnce { session with entry := cancelled.1 } :=
        keeps.withEntry (parks ▸ keeps.asks.park isActive)
      exact { parked with }
    · cases stepped
  | cancelResolves promptAttemptId =>
    dsimp only at stepped
    split at stepped
    · cases stepped
      exact { keeps.cancelRequests ends with }
    · cases stepped
  | cancelRejects promptAttemptId =>
    dsimp only at stepped
    split at stepped
    · cases stepped
      cases restores : session.entry.restorePromptCancellation promptAttemptId with
      | none => exact { keeps with }
      | some restored =>
        obtain ⟨isPending, restoreState, isParked, back⟩ :=
          StoreEntry.attemptState_restorePromptCancellation restores
        have still := ends isPending restoreState isParked
        have asks := keeps.asks.restore isPending isParked fun request member =>
          mem_pendingRequests.mp (still request member)
        have restored : AsksOnce { session with entry := restored.1 } :=
          keeps.withEntry (back ▸ asks)
        exact { restored with }
    · cases stepped
  | requestAcpPermission now request options =>
    cases stepped
    exact keeps.requestAcpPermission now request options
  | requestAcpElicitation now request =>
    obtain ⟨asked, asks, same⟩ := Option.map_eq_some_iff.mp stepped
    cases same
    exact keeps.requestAcpElicitation asks
  | resolveAcpPermissionRequest toolCallId action =>
    exact orSame stepped fun _ resolves => keeps.resolveAcpPermissionRequest resolves ends
  | resolveAcpElicitationRequest elicitationId userData =>
    exact orSame stepped fun _ resolves => keeps.endElicitation resolves ends
  | timeOut elicitationId =>
    exact orSame stepped fun _ resolves => keeps.endElicitation resolves ends

end AsksOnce

/-- A session at rest, with any messages. -/
theorem asksOnce_atRest {entry : StoreEntry ι} (atRest : entry.attemptState = AttemptState.ended) :
    AsksOnce { entry } where
  asks := atRest ▸ AsksUser.ended fun request => by cases request <;> simp [
    UserInputSession.arrival]
  permissions := Ledger.accounted_empty
  elicitations := Ledger.accounted_empty
  recorded := by simp

/-- In a run in which requests end with the waiting, the chat waits for the user exactly
while a request of the attempt is open, and every request is answered once. -/
theorem waitsForUser_of_reaches {entry : StoreEntry ι}
    (atRest : entry.attemptState = AttemptState.ended)
    {config : Config (UserInputSession ι) (Option String)}
    (reaches : Reaches UserInputSession.step endsWaiting { entry } config) :
    WaitsForUser config.state := by
  refine AsksOnce.waitsForUser (reaches.invariant (fun config => AsksOnce config.state)
    (asksOnce_atRest atRest) ?_)
  intro config next action _ keeps advanced ends
  obtain ⟨finished, stepped, -⟩ := advance_eq_some_iff.mp advanced
  exact keeps.step stepped ends

instance (session : UserInputSession ι) (action : UserInputAction ι) :
    Decidable (EndsWaiting session action) := by
  cases action <;> unfold EndsWaiting <;> unfold LeavesRequest <;> infer_instance

instance (config next : Config (UserInputSession ι) (Option String)) (action : UserInputAction ι) :
    Decidable (endsWaiting config action next) :=
  inferInstanceAs (Decidable (EndsWaiting config.state action))

/-- A request for permission to call a tool, with one option. -/
def toolPermission : UserInputAction Unit :=
  .requestAcpPermission 0
    { toolCallId := "t"
      title := none
      identity := {}
      arguments := none
      prompt := none } [⟨"yes", .allowOnce⟩]

/-- The user allows what the agent asks for. -/
def allowedRun : List (UserInputAction Unit) :=
  [.submitMessage, toolPermission, .resolveAcpPermissionRequest "t" .allowOnce]

theorem waitsForUser_allowedRun :
    ∃ config, exec UserInputSession.step (Config.initial { entry := {} }) allowedRun =
        some config ∧ WaitsForUser config.state := by
  obtain ⟨config, executed⟩ : ∃ config, exec UserInputSession.step
      (Config.initial { entry := {} }) allowedRun = some config :=
    Option.isSome_iff_exists.mp (by decide +kernel)
  exact ⟨config, executed, waitsForUser_of_reaches rfl
    (reaches_of_exec allowedRun (by decide +kernel) executed)⟩

def anyEnd : Guard (UserInputSession ι) (UserInputAction ι) (Option String) :=
  fun _ _ _ => True

instance (config next : Config (UserInputSession ι) (Option String)) (action : UserInputAction ι) :
    Decidable (anyEnd config action next) :=
  inferInstanceAs (Decidable True)

/-- A request that arrives after the attempt was stopped is allowed. -/
def stoppedRun : List (UserInputAction Unit) :=
  [.submitMessage, .stop, toolPermission, .resolveAcpPermissionRequest "t" .allowOnce]

/-- The chat waits for the user and no request is open. -/
theorem not_waitsForUser_stoppedRun :
    ∃ config, Reaches UserInputSession.step anyEnd { entry := ({} : StoreEntry Unit) } config ∧
      config.state.entry.chatState = .waitingForUserInput ∧
      config.state.pendingRequests = [] ∧ ¬WaitsForUser config.state := by
  obtain ⟨config, reaches, waits, none⟩ := exists_reaches_of_exec UserInputSession.step anyEnd
    { entry := ({} : StoreEntry Unit) }
    (fun config => config.state.entry.chatState = .waitingForUserInput ∧
      config.state.pendingRequests = [])
    stoppedRun (by decide +kernel) (by decide +kernel)
  exact ⟨config, reaches, waits, none, fun keeps => keeps.onlyPending waits none⟩

end Obelus.Acp
