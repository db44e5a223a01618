import Obelus.Acp.PromptAttempts

/-!
# Requests to the user

The agent asks the user for permission and for input while it works on a prompt.  A
request awaits its answer in a map of its module, and its id is in the entry of the
session.  This file follows the requests of one session, beside the attempts to prompt
and their cancellations.
-/

namespace Obelus.Acp

open Obelus.Data (Ledger)
open Obelus.Transition

variable {ι : Type}

inductive Permission
  | allowOnce
  | alwaysAllow
  | denyOnce
  | alwaysDeny
  | cancel

inductive PermissionOptionKind
  | allowOnce
  | allowAlways
  | rejectOnce
  | rejectAlways
  deriving DecidableEq

structure PermissionOption where
  optionId : String
  kind : PermissionOptionKind

inductive RequestPermissionResponse
  | cancelled
  | selected (optionId : String)

inductive CreateElicitationResponse (ι : Type)
  | accept (content : ι)
  | cancel

def permissionOptionKindForAction : Permission → Option PermissionOptionKind
  | .allowOnce => some .allowOnce
  | .alwaysAllow => some .allowAlways
  | .denyOnce => some .rejectOnce
  | .alwaysDeny => some .rejectAlways
  | .cancel => none

def permissionOptionIdForAction (options : List PermissionOption) (action : Permission) :
    Option String :=
  (permissionOptionKindForAction action).bind fun kind =>
    (options.find? fun candidate => candidate.kind = kind).map PermissionOption.optionId

def permissionResponseForAction (options : List PermissionOption) (action : Permission) :
    RequestPermissionResponse :=
  match present (permissionOptionIdForAction options action) with
  | some optionId => .selected optionId
  | none => .cancelled

/-- What is kept of a request, and the attempt that was active when it arrived. -/
structure Arrived (ρ : Type) where
  request : ρ
  attempt : Option Nat

/-- The entry of a session, its requests to the user, the number of attempts made so far,
and the attempts whose prompt, or whose cancellation for an edit, is being called. -/
structure UserInputSession (ι : Type) where
  entry : StoreEntry ι
  permissions : Ledger String (Arrived (List PermissionOption)) RequestPermissionResponse := {}
  elicitations : Ledger String (Arrived Unit) (CreateElicitationResponse ι) := {}
  attempts : Nat := 0
  promptCalls : Finset Nat := ∅
  cancelCalls : Finset Nat := ∅

inductive UserInputAction (ι : Type)
  | submitMessage
  | promptSettles (promptAttemptId : Nat) (outcome : StoreEntry.PromptOutcome ι)
  | stop
  | updateMessage (messageId : String) (editType : StoreEntry.EditType)
      (current : Option (ChatSessionSnapshot ι))
  | cancelResolves (promptAttemptId : Nat)
  | cancelRejects (promptAttemptId : Nat)
  | requestAcpPermission (now : Int) (request : PermissionRequest ι)
      (options : List PermissionOption)
  | requestAcpElicitation (now : Int) (request : ElicitationRequest ι)
  | resolveAcpPermissionRequest (toolCallId : String) (action : Permission)
  | resolveAcpElicitationRequest (elicitationId : String) (userData : ι)
  | timeOut (elicitationId : String)

namespace UserInputSession

/-- The attempt in which a pending request arrived. -/
def arrival (session : UserInputSession ι) : UserInputRequestId → Option (Option Nat)
  | .permission toolCallId =>
    (session.permissions.awaiting.get? toolCallId).map fun awaiting => awaiting.request.attempt
  | .elicitation elicitationId =>
    (session.elicitations.awaiting.get? elicitationId).map fun awaiting =>
      awaiting.request.attempt

def pendingRequests (session : UserInputSession ι) : List UserInputRequestId :=
  session.permissions.awaiting.keys.map .permission ++
    session.elicitations.awaiting.keys.map .elicitation

def requestAcpPermission (now : Int) (request : PermissionRequest ι)
    (options : List PermissionOption) (session : UserInputSession ι) : UserInputSession ι :=
  { session with
    permissions := session.permissions.issue request.toolCallId
      { request := options, attempt := session.entry.activePromptAttemptId } (some .cancelled)
    entry := (session.entry.applyPermissionRequest now request).1 }

def resolveAcpPermissionRequest (toolCallId : String) (action : Permission)
    (session : UserInputSession ι) : Option (UserInputSession ι) :=
  (session.permissions.settle toolCallId fun arrived =>
    permissionResponseForAction arrived.request action).map fun permissions =>
      { session with
        permissions
        entry := (session.entry.resolveUserInputRequest (.permission toolCallId)).1 }

def cancelAcpPermissionRequests (session : UserInputSession ι) : UserInputSession ι :=
  { session with permissions := session.permissions.settleAll fun _ _ => .cancelled }

/-- A form for the session, under a new id.  Another elicitation is answered at once and
is no request of the session. -/
def requestAcpElicitation (now : Int) (request : ElicitationRequest ι)
    (session : UserInputSession ι) : Option (UserInputSession ι) :=
  if request.id ∈ session.elicitations.issued then none
  else
    some { session with
      elicitations := session.elicitations.issue request.id
        { request := (), attempt := session.entry.activePromptAttemptId } none
      entry := (session.entry.applyElicitationRequest now request).1 }

/-- An elicitation is over, because of an answer or a timeout. -/
def endElicitation (elicitationId : String) (status : ElicitationStatus)
    (response : CreateElicitationResponse ι) (session : UserInputSession ι) :
    Option (UserInputSession ι) :=
  (session.elicitations.settle elicitationId fun _ => response).map fun elicitations =>
    { session with
      elicitations
      entry := ((session.entry.setElicitationStatus elicitationId status).1.resolveUserInputRequest
        (.elicitation elicitationId)).1 }

def resolveAcpElicitationRequest (elicitationId : String) (userData : ι)
    (session : UserInputSession ι) : Option (UserInputSession ι) :=
  session.endElicitation elicitationId .submitted (.accept userData)

/-- The timeout of `requestAcpElicitation`. -/
def timeOut (elicitationId : String) (session : UserInputSession ι) :
    Option (UserInputSession ι) :=
  session.endElicitation elicitationId .cancelled .cancel

def cancelAcpElicitationRequests (session : UserInputSession ι) : UserInputSession ι :=
  { session with
    elicitations := session.elicitations.settleAll fun _ _ => .cancel
    entry := session.elicitations.awaiting.keys.foldl (fun entry elicitationId =>
      (entry.setElicitationStatus elicitationId .cancelled).1) session.entry }

def cancelRequests (session : UserInputSession ι) : UserInputSession ι :=
  session.cancelAcpPermissionRequests.cancelAcpElicitationRequests

/-- `stop`: the requests are cancelled with the attempt. -/
def stop (session : UserInputSession ι) : UserInputSession ι :=
  let stopped := session.entry.stop
  let session := { session with entry := stopped.1.1 }
  if stopped.2.isSome then session.cancelRequests else session

/-- An answer to a request that is not pending does nothing. -/
def orSame (session : UserInputSession ι) (stepped : Option (UserInputSession ι)) :
    Option (UserInputSession ι × List (Option String)) :=
  some (stepped.getD session, [])

/-- One step, with the calls of `onFinish`.  An edit is a step when it cancels the active
attempt; its call of `acpCancelPrompt` may settle at any later time. -/
def step : Machine (UserInputSession ι) (UserInputAction ι) (Option String)
  | session, .submitMessage =>
    match session.entry.submitMessage session.attempts with
    | .ok (some told) =>
      some ({ session with
        entry := told.1
        attempts := session.attempts + 1
        promptCalls := insert session.attempts session.promptCalls }, [])
    | _ => some (session, [])
  | session, .promptSettles promptAttemptId outcome =>
    if promptAttemptId ∈ session.promptCalls then
      let finished := session.entry.settlePrompt promptAttemptId outcome
      some ({ session with
        entry := finished.1.1
        promptCalls := session.promptCalls.erase promptAttemptId }, finished.2)
    else none
  | session, .stop => some (session.stop, [])
  | session, .updateMessage messageId editType current =>
    match session.entry.updateMessage messageId editType current with
    | .ok (.cancels _ promptAttemptId told) =>
      some ({ session with
        entry := told.1
        cancelCalls := insert promptAttemptId session.cancelCalls }, [])
    | _ => none
  | session, .cancelResolves promptAttemptId =>
    if promptAttemptId ∈ session.cancelCalls then
      some ({ session.cancelRequests with
        cancelCalls := session.cancelCalls.erase promptAttemptId }, [])
    else none
  | session, .cancelRejects promptAttemptId =>
    if promptAttemptId ∈ session.cancelCalls then
      some ({ session with
        entry := ((session.entry.restorePromptCancellation promptAttemptId).map Prod.fst).getD
          session.entry
        cancelCalls := session.cancelCalls.erase promptAttemptId }, [])
    else none
  | session, .requestAcpPermission now request options =>
    some (session.requestAcpPermission now request options, [])
  | session, .requestAcpElicitation now request =>
    (session.requestAcpElicitation now request).map fun session => (session, [])
  | session, .resolveAcpPermissionRequest toolCallId action =>
    session.orSame (session.resolveAcpPermissionRequest toolCallId action)
  | session, .resolveAcpElicitationRequest elicitationId userData =>
    session.orSame (session.resolveAcpElicitationRequest elicitationId userData)
  | session, .timeOut elicitationId => session.orSame (session.timeOut elicitationId)

end UserInputSession

/-- The chat waits for the user exactly while a request is open, and every request is
answered once. -/
structure WaitsForUser (session : UserInputSession ι) : Prop where
  onlyPending : session.entry.chatState = .waitingForUserInput → session.pendingRequests ≠ []
  whilePending : ∀ request promptAttemptId,
    session.arrival request = some (some promptAttemptId) →
    session.entry.activePromptAttemptId = some promptAttemptId →
    session.entry.chatState = .waitingForUserInput
  permissionsOnce : session.permissions.Accounted
  elicitationsOnce : session.elicitations.Accounted

/-- The end of a request leaves another one pending, when the chat waits and no attempt
is active: nothing but the end of the last request of an attempt ends the waiting. -/
def LeavesRequest (session : UserInputSession ι) (request : UserInputRequestId) : Prop :=
  ¬(session.entry.activePromptAttemptId = none ∧
    session.entry.chatState = .waitingForUserInput ∧
    ∀ other ∈ session.pendingRequests, other = request)

/-- The requests end with the waiting: an edit does not cancel them while the chat waits,
and an attempt is not restored with a request that is over. -/
def EndsWaiting (session : UserInputSession ι) : UserInputAction ι → Prop
  | .resolveAcpPermissionRequest toolCallId _ => LeavesRequest session (.permission toolCallId)
  | .resolveAcpElicitationRequest elicitationId _ =>
    LeavesRequest session (.elicitation elicitationId)
  | .timeOut elicitationId => LeavesRequest session (.elicitation elicitationId)
  | .cancelResolves _ => session.entry.chatState ≠ .waitingForUserInput
  | .cancelRejects promptAttemptId =>
    session.entry.pendingCancelPromptAttemptId = some promptAttemptId →
      ∀ restoreState ∈ session.entry.promptCancellationRestoreState,
        ∀ request ∈ restoreState.pendingUserInputRequestIds, request ∈ session.pendingRequests
  | _ => True

def endsWaiting : Guard (UserInputSession ι) (UserInputAction ι) (Option String) :=
  fun config action _ => EndsWaiting config.state action

end Obelus.Acp
