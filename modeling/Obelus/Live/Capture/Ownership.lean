import Obelus.Live.Capture.Lifecycle

/-!
# Ownership of a meeting by one window

The coordinator keeps the owner of a meeting twice: in a map over meetings, and
in the snapshot for the meeting it shows.  In every state the two agree on the
shown meeting, and a meeting in the map is freed only when its owner is
destroyed or when the meeting is cleared or acknowledged.  These two methods are
not told which window asks for them: the request handlers assert the owner, wait
for the store, and then call them.
-/

namespace Obelus.Live.Capture

open Obelus.Data
open Obelus.Transition

/-- An action with the window it is sent by, which the methods that clear and
acknowledge a meeting are not told. -/
structure SentAction where
  sender : Nat
  action : CaptureAction

/-- A call that was made, the window whose meetings it releases, and whether it
threw. -/
structure CallRecord where
  sender : Nat
  action : CaptureAction
  destroyed : Option Nat
  threw : Bool

def CaptureObservation.isThrow : CaptureObservation → Bool
  | .threw _ => true
  | _ => false

/-- The window that a segment of `ownerDestroyed` is about: its call, and its
continuation after the finalization it waited for. -/
def LiveCaptureCoordinator.destroyed (coordinator : LiveCaptureCoordinator) :
    CaptureAction → Option Nat
  | .ownerDestroyed owner => some owner
  | .ownerDestroyedContinues call => match coordinator.awaiting call with
      | some (.ownerDestroyed owner) => some owner
      | _ => none
  | _ => none

/-- The coordinator with a record of its calls. -/
def calls : Machine LiveCaptureCoordinator SentAction CallRecord :=
  fun coordinator sent => (step coordinator sent.action).map fun outcome =>
    (outcome.1, [⟨sent.sender, sent.action, coordinator.destroyed sent.action,
      outcome.2.any CaptureObservation.isThrow⟩])

def anyCall : Guard LiveCaptureCoordinator SentAction CallRecord :=
  fun _ _ _ => True

namespace CaptureAction

/-- An action that claims a meeting for a window unless it throws. -/
def claims (owner : Nat) (meetingId : String) : CaptureAction → Bool
  | .start config sender => config.meetingId = meetingId && sender = owner
  | .assertMeetingOwner asserted sender => asserted = meetingId && sender = owner
  | _ => false

/-- An action that clears or acknowledges a meeting. -/
def frees (meetingId : String) : CaptureAction → Bool
  | .clearFinalizedMeeting cleared => cleared = meetingId
  | .acknowledgeAudioAssetsPersisted acknowledged => acknowledged = meetingId
  | _ => false

end CaptureAction

/-- A window claimed a meeting, and no call has ended the claim since. -/
def claimed (ends : CallRecord → Bool) (owner : Nat) (meetingId : String)
    (trace : List CallRecord) : Bool :=
  trace.foldl (fun held record =>
    record.action.claims owner meetingId && !record.threw || held && !ends record) false

/-- The owner is destroyed, or clears or acknowledges the meeting. -/
def endedByOwner (owner : Nat) (meetingId : String) (record : CallRecord) : Bool :=
  record.destroyed = some owner || record.action.frees meetingId && record.sender = owner

/-- The owner is destroyed, or any window clears or acknowledges the meeting. -/
def ended (owner : Nat) (meetingId : String) (record : CallRecord) : Bool :=
  record.destroyed = some owner || record.action.frees meetingId

/-- A call throws and leaves the coordinator as it was. -/
def Throws (coordinator : LiveCaptureCoordinator) (outcome : Outcome) : Prop :=
  ∃ message, outcome = (coordinator, [.threw message])

/-- A window can neither claim a meeting nor act on it while it is active. -/
structure Refuses (coordinator : LiveCaptureCoordinator) (meetingId : String) (sender : Nat) :
    Prop where
  start : ∀ config : LiveCaptureStartConfig, config.meetingId = meetingId →
    Throws coordinator (coordinator.start config sender)
  assertMeetingOwner : Throws coordinator (coordinator.assertMeetingOwner meetingId sender)
  appendAudio : coordinator.isActive → coordinator.snapshot.meetingId = some meetingId →
    ∀ frame createId, Throws coordinator (coordinator.appendAudio frame sender createId)
  pause : coordinator.isActive → coordinator.snapshot.meetingId = some meetingId →
    ∀ createId, Throws coordinator (coordinator.pause sender createId)
  resume : coordinator.isActive → coordinator.snapshot.meetingId = some meetingId →
    ∀ createId, Throws coordinator (coordinator.resume sender createId)
  stop : coordinator.isActive → coordinator.snapshot.meetingId = some meetingId →
    Throws coordinator (coordinator.stop sender)

/-- A meeting that a window has claimed refuses all other windows. -/
def Exclusive (ends : Nat → String → CallRecord → Bool)
    (config : Config LiveCaptureCoordinator CallRecord) : Prop :=
  ∀ owner meetingId, claimed (ends owner meetingId) owner meetingId config.trace →
    ∀ sender, sender ≠ owner → Refuses config.state meetingId sender

/-! ## Effects on the owners -/

/-- The owners the coordinator keeps, with the meeting it shows. -/
structure Ownership where
  meetingOwners : JsMap String Nat
  meetingId : Option String
  owner : Option Nat

def LiveCaptureCoordinator.ownership (coordinator : LiveCaptureCoordinator) : Ownership where
  meetingOwners := coordinator.meetingOwners
  meetingId := coordinator.snapshot.meetingId
  owner := coordinator.snapshot.ownerWebContentsId

namespace Ownership

def claim (ownership : Ownership) (meetingId : String) (sender : Nat) : Ownership where
  meetingOwners := ownership.meetingOwners.set meetingId sender
  meetingId := ownership.meetingId
  owner :=
    if ownership.meetingId = some meetingId ∧ ownership.owner = none then some sender
    else ownership.owner

def release (ownership : Ownership) (owner : Nat) : Ownership where
  meetingOwners := (ownership.meetingOwners.entries.filter fun entry => entry.2 = owner).foldl
    (fun owners entry => owners.delete entry.1) ownership.meetingOwners
  meetingId := ownership.meetingId
  owner := if ownership.owner = some owner then none else ownership.owner

/-- The owner in the snapshot is the one kept for the shown meeting. -/
def Consistent (ownership : Ownership) : Prop :=
  ∀ meetingId, ownership.meetingId = some meetingId →
    ownership.owner = ownership.meetingOwners.get? meetingId

end Ownership

/-- The changes a segment may make to the owners. -/
inductive OwnershipEffect (coordinator : LiveCaptureCoordinator) :
    CaptureAction → Bool → Ownership → Prop
  | kept {action : CaptureAction} {threw : Bool}
      (unclaimed : ∀ owner meetingId, action.claims owner meetingId → threw = false →
        coordinator.snapshot.meetingId = some meetingId ∧
          coordinator.snapshot.ownerWebContentsId = some owner) :
      OwnershipEffect coordinator action threw coordinator.ownership
  | asserted {meetingId : String} {sender : Nat} {threw : Bool}
      (free : ∀ owner ∈ coordinator.meetingOwners.get? meetingId, owner = sender) :
      OwnershipEffect coordinator (.assertMeetingOwner meetingId sender) threw
        (coordinator.ownership.claim meetingId sender)
  | started {config : LiveCaptureStartConfig} {sender : Nat} {threw : Bool}
      (free : ∀ owner ∈ coordinator.meetingOwners.get? config.meetingId, owner = sender) :
      OwnershipEffect coordinator (.start config sender) threw
        { meetingOwners := coordinator.meetingOwners.set config.meetingId sender
          meetingId := some config.meetingId
          owner := some sender }
  | released {action : CaptureAction} {owner : Nat} {threw : Bool}
      (destroyed : coordinator.destroyed action = some owner) :
      OwnershipEffect coordinator action threw (coordinator.ownership.release owner)
  | forgotten {action : CaptureAction} {meetingId : String} {threw : Bool}
      (frees : action.frees meetingId) :
      OwnershipEffect coordinator action threw
        { meetingOwners := coordinator.meetingOwners.delete meetingId
          meetingId := none
          owner := none }
  | freed {action : CaptureAction} {meetingId : String} {threw : Bool}
      (frees : action.frees meetingId)
      (hidden : coordinator.snapshot.meetingId ≠ some meetingId) :
      OwnershipEffect coordinator action threw
        { coordinator.ownership with
          meetingOwners := coordinator.meetingOwners.delete meetingId }

namespace Ownership

theorem get?_foldl_delete (entries : List (String × Nat)) (owners : JsMap String Nat)
    (meetingId : String) :
    (entries.foldl (fun owners entry => owners.delete entry.1) owners).get? meetingId =
      if meetingId ∈ entries.map Prod.fst then none else owners.get? meetingId := by
  induction entries generalizing owners with
  | nil => simp
  | cons entry rest ih =>
    rw [List.foldl_cons, ih, JsMap.get?_delete]
    by_cases same : meetingId = entry.1
    · simp [same]
    · rw [if_neg same]
      apply if_congr ?_ rfl rfl
      simp [same]

theorem get?_release (ownership : Ownership) (owner : Nat) (meetingId : String) :
    (ownership.release owner).meetingOwners.get? meetingId =
      if ownership.meetingOwners.get? meetingId = some owner then none
      else ownership.meetingOwners.get? meetingId := by
  simp only [release, get?_foldl_delete]
  apply if_congr ?_ rfl rfl
  simp [JsMap.mem_entries_iff]

variable {coordinator : LiveCaptureCoordinator} {action : CaptureAction} {threw : Bool}
  {after : Ownership} {owner : Nat} {meetingId : String}

theorem consistent_of_effect (effect : OwnershipEffect coordinator action threw after)
    (consistent : coordinator.ownership.Consistent) : after.Consistent := by
  intro shown isShown
  cases effect with
  | kept unclaimed => exact consistent shown isShown
  | @asserted meetingId sender _ free =>
    have agrees := consistent shown isShown
    change coordinator.ownership.meetingId = some shown at isShown
    simp only [claim, isShown, Option.some.injEq]
    by_cases same : shown = meetingId
    · subst same
      cases held : coordinator.ownership.owner with
      | none => simp
      | some holder =>
        have mine : holder = sender := free holder (agrees.symm.trans held)
        simp [mine]
    · rw [JsMap.get?_set_of_ne _ same, if_neg (fun both => same both.1)]
      exact agrees
  | started free =>
    cases isShown
    exact (JsMap.get?_set_self _ _ _).symm
  | released destroyed =>
    rw [get?_release, ← consistent shown isShown]
    rfl
  | forgotten frees => cases isShown
  | @freed _ meetingId _ frees hidden =>
    have differ : shown ≠ meetingId := by
      rintro rfl
      exact hidden isShown
    rw [JsMap.get?_delete_of_ne _ differ]
    exact consistent shown isShown

theorem held_of_effect (effect : OwnershipEffect coordinator action threw after)
    (held : coordinator.meetingOwners.get? meetingId = some owner)
    (remains : coordinator.destroyed action ≠ some owner) (unfreed : action.frees meetingId = false)
    : after.meetingOwners.get? meetingId = some owner := by
  have other {freed : String} (frees : action.frees freed) : meetingId ≠ freed := by
    rintro rfl
    rw [frees] at unfreed
    cases unfreed
  cases effect with
  | kept unclaimed => exact held
  | @asserted asserted sender _ free =>
    by_cases same : meetingId = asserted
    · subst same
      rw [free owner held]
      exact JsMap.get?_set_self _ _ _
    · exact (JsMap.get?_set_of_ne _ same _).trans held
  | @started config sender _ free =>
    by_cases same : meetingId = config.meetingId
    · subst same
      rw [free owner held]
      exact JsMap.get?_set_self _ _ _
    · exact (JsMap.get?_set_of_ne _ same _).trans held
  | @released _ destroyedOwner _ destroyed =>
    have differ : owner ≠ destroyedOwner := by
      rintro rfl
      exact remains destroyed
    rw [get?_release]
    change (if coordinator.meetingOwners.get? meetingId = some destroyedOwner then none
      else coordinator.meetingOwners.get? meetingId) = some owner
    rw [held, if_neg (by simpa using differ)]
  | forgotten frees => exact (JsMap.get?_delete_of_ne _ (other frees)).trans held
  | freed frees hidden => exact (JsMap.get?_delete_of_ne _ (other frees)).trans held

theorem claimed_of_effect (effect : OwnershipEffect coordinator action false after)
    (consistent : coordinator.ownership.Consistent) (claims : action.claims owner meetingId) :
    after.meetingOwners.get? meetingId = some owner := by
  have unfreed : action.frees meetingId = false ∧ coordinator.destroyed action = none := by
    cases action <;> simp_all [CaptureAction.claims, CaptureAction.frees,
      LiveCaptureCoordinator.destroyed]
  cases effect with
  | kept unclaimed =>
    obtain ⟨shown, owned⟩ := unclaimed owner meetingId claims rfl
    exact (consistent meetingId shown).symm.trans owned
  | asserted free =>
    simp only [CaptureAction.claims, Bool.and_eq_true, decide_eq_true_eq] at claims
    obtain ⟨rfl, rfl⟩ := claims
    exact JsMap.get?_set_self _ _ _
  | started free =>
    simp only [CaptureAction.claims, Bool.and_eq_true, decide_eq_true_eq] at claims
    obtain ⟨rfl, rfl⟩ := claims
    exact JsMap.get?_set_self _ _ _
  | released destroyed => simp [unfreed.2] at destroyed
  | forgotten frees =>
    cases action <;> simp_all [CaptureAction.claims, CaptureAction.frees]
  | freed frees hidden =>
    cases action <;> simp_all [CaptureAction.claims, CaptureAction.frees]

end Ownership

/-! ## Segments -/

namespace LiveCaptureCoordinator

section

variable (coordinator : LiveCaptureCoordinator)

/-- The owners, the suspended calls and the identity of the next one. -/
def holdings : Ownership × List CaptureCall × Nat :=
  (coordinator.ownership, coordinator.calls, coordinator.nextCall)

theorem holdings_refreshElapsed : coordinator.refreshElapsed.holdings = coordinator.holdings := by
  unfold refreshElapsed
  split <;> rfl

theorem holdings_broadcast (immediate : Bool) :
    (coordinator.broadcast immediate).1.holdings = coordinator.holdings := by
  unfold broadcast
  split
  · rfl
  · split
    · exact holdings_refreshElapsed _
    · rfl

theorem holdings_broadcastAndReturn :
    coordinator.broadcastAndReturn.1.holdings = coordinator.holdings :=
  (holdings_refreshElapsed _).trans (holdings_broadcast coordinator true)

theorem holdings_storeAssets (snapshotObject : Nat) (assets : List LiveAudioAsset) :
    (coordinator.storeAssets snapshotObject assets).holdings = coordinator.holdings := by
  unfold storeAssets
  split <;> rfl

@[simp]
theorem ownership_broadcast (immediate : Bool) :
    (coordinator.broadcast immediate).1.ownership = coordinator.ownership :=
  congrArg Prod.fst (holdings_broadcast coordinator immediate)

@[simp]
theorem ownership_returnSnapshot : coordinator.returnSnapshot.1.ownership = coordinator.ownership :=
  congrArg Prod.fst (holdings_refreshElapsed coordinator)

@[simp]
theorem ownership_continueOwnerDestroyed (destroyedOwner : Option Nat) :
    (coordinator.continueOwnerDestroyed destroyedOwner).ownership = coordinator.ownership := by
  cases destroyedOwner <;> rfl

end

/-- What `claimMeeting` finds and does when it succeeds. -/
theorem claimMeeting_eq_some {coordinator claimed : LiveCaptureCoordinator} {meetingId : String}
    {sender : Nat} (claims : coordinator.claimMeeting meetingId sender = some claimed) :
    (∀ owner ∈ coordinator.meetingOwners.get? meetingId, owner = sender) ∧
      claimed.ownership = coordinator.ownership.claim meetingId sender := by
  unfold claimMeeting at claims
  split at claims
  · cases claims
  · rename_i free
    split at claims
    · cases claims
    · cases claims
      constructor
      · intro owner holds
        by_contra other
        apply free
        rw [Option.mem_def.mp holds]
        simpa using other
      · by_cases shown : coordinator.snapshot.meetingId = some meetingId ∧
            coordinator.snapshot.ownerWebContentsId = none
        · rw [if_pos (by simpa using shown)]
          exact congrArg (Ownership.mk _ _) (if_pos shown).symm
        · rw [if_neg (by simpa using shown)]
          exact congrArg (Ownership.mk _ _) (if_neg shown).symm

theorem ownership_releaseOwner (coordinator : LiveCaptureCoordinator) (owner : Nat) :
    (coordinator.releaseOwner owner).1.ownership = coordinator.ownership.release owner := by
  unfold releaseOwner
  dsimp only
  split
  · rename_i owned
    rw [ownership_broadcast]
    exact congrArg (Ownership.mk _ _) (if_pos owned).symm
  · rename_i foreign
    exact congrArg (Ownership.mk _ _) (if_neg foreign).symm

end LiveCaptureCoordinator

variable {coordinator : LiveCaptureCoordinator} {action : CaptureAction}

/-- An action that claims no meeting. -/
theorem OwnershipEffect.of_unclaiming {threw : Bool} {after : Ownership}
    (same : after = coordinator.ownership)
    (claimsNone : ∀ owner meetingId, action.claims owner meetingId = false) :
    OwnershipEffect coordinator action threw after := by
  subst same
  apply OwnershipEffect.kept
  intro owner meetingId claims
  rw [claimsNone owner meetingId] at claims
  cases claims

/-- A call that throws. -/
theorem OwnershipEffect.of_threw :
    OwnershipEffect coordinator action true coordinator.ownership := by
  apply OwnershipEffect.kept
  intro owner meetingId _ unthrown
  cases unthrown

namespace LiveCaptureCoordinator

section

variable (coordinator)

theorem start_ownership (config : LiveCaptureStartConfig) (sender : Nat) :
    OwnershipEffect coordinator (.start config sender)
      ((coordinator.start config sender).2.any CaptureObservation.isThrow)
      (coordinator.start config sender).1.ownership := by
  unfold start
  split
  · split
    · rename_i shown
      rw [ownership_returnSnapshot]
      apply OwnershipEffect.kept
      intro owner meetingId claims _
      simp only [Bool.and_eq_true, decide_eq_true_eq, CaptureAction.claims] at shown claims
      rw [← claims.1, ← claims.2]
      exact shown
    · exact .of_threw
  · cases claims : coordinator.claimMeeting config.meetingId sender with
    | none => exact .of_threw
    | some claimed =>
      obtain ⟨free, claimedEq⟩ := claimMeeting_eq_some claims
      have ownersEq := congrArg Ownership.meetingOwners claimedEq
      have began : (((claimed.beginCapture config sender).broadcast true).1.suspend
          .startMeeting).ownership =
            { meetingOwners := coordinator.meetingOwners.set config.meetingId sender
              meetingId := some config.meetingId
              owner := some sender } := by
        change ((claimed.beginCapture config sender).broadcast true).1.ownership = _
        rw [ownership_broadcast]
        change Ownership.mk claimed.meetingOwners _ _ = _
        rw [show claimed.meetingOwners = _ from ownersEq]
        rfl
      rw [began]
      exact .started free

theorem assertMeetingOwner_ownership (meetingId : String) (sender : Nat) :
    OwnershipEffect coordinator (.assertMeetingOwner meetingId sender)
      ((coordinator.assertMeetingOwner meetingId sender).2.any CaptureObservation.isThrow)
      (coordinator.assertMeetingOwner meetingId sender).1.ownership := by
  unfold assertMeetingOwner
  cases claims : coordinator.claimMeeting meetingId sender with
  | none => exact .of_threw
  | some claimed =>
    obtain ⟨free, claimedEq⟩ := claimMeeting_eq_some claims
    rw [claimedEq]
    exact .asserted free

theorem ownership_appendAudio (frame : LiveAudioFrame) (sender : Nat) (createId : String) :
    (coordinator.appendAudio frame sender createId).1.ownership = coordinator.ownership := by
  have handed : (coordinator.handFrame frame createId).1.ownership = coordinator.ownership := by
    unfold handFrame
    dsimp only
    split <;> rfl
  unfold appendAudio
  split
  · rfl
  split
  · rfl
  split
  · rfl
  split
  · exact handed
  split
  · rfl
  split
  · rfl
  exact handed

theorem ownership_finalize (meetingId : String) (lifecycle : FinalLifecycle)
    (destroyedOwner : Option Nat) :
    (coordinator.finalize meetingId lifecycle destroyedOwner).1.ownership =
      coordinator.ownership :=
  ownership_broadcast coordinator.beginStopping true

theorem ownership_stop (sender : Nat) :
    (coordinator.stop sender).1.ownership = coordinator.ownership := by
  unfold stop
  split
  · rfl
  split
  · rfl
  split
  · exact ownership_returnSnapshot coordinator
  split
  · exact ownership_returnSnapshot coordinator
  split
  · rfl
  split
  · rfl
  exact ownership_finalize { coordinator with stopPromise := true } _ _ _

theorem ownerDestroyed_ownership (owner : Nat) (threw : Bool) :
    OwnershipEffect coordinator (.ownerDestroyed owner) threw
      (coordinator.ownerDestroyed owner).1.ownership := by
  unfold ownerDestroyed
  split
  · split
    · exact .of_unclaiming rfl (by simp [CaptureAction.claims])
    · apply OwnershipEffect.of_unclaiming _ (by simp [CaptureAction.claims])
      exact ownership_finalize { coordinator with stopPromise := true } _ _ _
  · rw [ownership_releaseOwner]
    exact .released rfl

theorem ownership_resetSnapshot (recoveredMeetings : List LiveRecoveredMeeting) :
    (coordinator.resetSnapshot recoveredMeetings).1.ownership =
      { meetingOwners := coordinator.meetingOwners
        meetingId := none
        owner := none } :=
  ownership_broadcast (coordinator.forgetCapture recoveredMeetings) true

theorem clearFinalizedMeeting_ownership (meetingId : String) (threw : Bool) :
    OwnershipEffect coordinator (.clearFinalizedMeeting meetingId) threw
      (coordinator.clearFinalizedMeeting meetingId).1.ownership := by
  unfold clearFinalizedMeeting
  split
  · exact .of_unclaiming rfl (by simp [CaptureAction.claims])
  split
  · exact .of_unclaiming rfl (by simp [CaptureAction.claims])
  rw [ownership_resetSnapshot]
  exact .forgotten (by simp [CaptureAction.frees])

theorem acknowledge_ownership (meetingId : String) (threw : Bool) :
    OwnershipEffect coordinator (.acknowledgeAudioAssetsPersisted meetingId) threw
      (coordinator.acknowledgeAudioAssetsPersisted meetingId).1.ownership := by
  have frees : (CaptureAction.acknowledgeAudioAssetsPersisted meetingId).frees meetingId := by
    simp [CaptureAction.frees]
  unfold acknowledgeAudioAssetsPersisted
  split
  · exact .of_unclaiming rfl (by simp [CaptureAction.claims])
  by_cases shown : coordinator.snapshot.meetingId = some meetingId
  · cases active : coordinator.isActive with
    | true =>
      apply OwnershipEffect.of_unclaiming _ (by simp [CaptureAction.claims])
      simp only [shown, releaseMeeting, active, Bool.not_true, Bool.and_false, Bool.false_eq_true,
        if_false, ownership_broadcast]
      rfl
    | false =>
      simp only [shown, releaseMeeting, active, decide_true, Bool.not_false, Bool.and_true,
        if_true, ownership_resetSnapshot]
      exact .forgotten frees
  · simp only [shown, releaseMeeting, decide_false, Bool.false_and, Bool.false_eq_true, if_false,
      ownership_broadcast]
    exact .freed frees shown

end

variable {coordinator : LiveCaptureCoordinator} {meetingId : String} {owner sender : Nat}

/-- A coordinator whose call is settled by an action that does nothing else to its holdings. -/
def settled (coordinator : LiveCaptureCoordinator) : CaptureAction → LiveCaptureCoordinator
  | .meetingStarted call | .startFailed call | .frameWritten call _ => coordinator.settle call
  | _ => coordinator

/-- The actions that show the meeting, write its timeline or let time pass. -/
def onlyShows : CaptureAction → Bool
  | .pause _ _ | .resume _ _ | .markSystemSleep _ | .markSystemResume _ | .getSnapshot
  | .meetingStarted _ | .startFailed _ | .frameWritten _ _ | .intervalTick _ | .broadcastTimeout
  | .clock _ => true
  | _ => false

theorem holdings_of_onlyShows {action : CaptureAction} {outcome : Outcome}
    (stepped : step coordinator action = some outcome) (shows : onlyShows action = true) :
    outcome.1.holdings = (coordinator.settled action).holdings := by
  cases action with
  | pause sender createId =>
    cases stepped
    unfold pause
    split
    · rfl
    split
    · exact holdings_refreshElapsed coordinator
    split
    · rfl
    exact holdings_broadcastAndReturn _
  | resume sender createId =>
    cases stepped
    unfold resume
    split
    · rfl
    split
    · exact holdings_refreshElapsed coordinator
    split
    · rfl
    exact holdings_broadcastAndReturn _
  | markSystemSleep createId =>
    cases stepped
    unfold markSystemSleep
    split
    · rfl
    · exact holdings_broadcast _ true
  | markSystemResume createId =>
    cases stepped
    unfold markSystemResume
    split
    · rfl
    · exact holdings_broadcast _ true
  | getSnapshot =>
    cases stepped
    exact holdings_refreshElapsed coordinator
  | meetingStarted call =>
    simp only [step] at stepped
    split at stepped <;> cases stepped
    exact holdings_broadcastAndReturn (coordinator.settle call)
  | startFailed call =>
    simp only [step] at stepped
    split at stepped <;> cases stepped
    exact holdings_broadcast _ true
  | frameWritten call bytesBySource =>
    simp only [step] at stepped
    split at stepped
    · rename_i frame activationEpochMs droppedFrames awaited
      cases stepped
      refine (holdings_broadcast _ false).trans ?_
      cases activationEpochMs <;> rfl
    · cases stepped
  | intervalTick handle =>
    simp only [step] at stepped
    split at stepped <;> cases stepped
    exact (holdings_broadcast _ true).trans (holdings_refreshElapsed coordinator)
  | broadcastTimeout =>
    simp only [step] at stepped
    split at stepped <;> cases stepped
    exact holdings_refreshElapsed
      { coordinator with broadcastTimer := false, lastBroadcastAt := coordinator.now }
  | clock now =>
    cases stepped
    rfl
  | _ => cases shows

theorem step_ownership {action : CaptureAction} {outcome : Outcome}
    (stepped : step coordinator action = some outcome) :
    OwnershipEffect coordinator action (outcome.2.any CaptureObservation.isThrow)
      outcome.1.ownership := by
  have unclaiming {after : LiveCaptureCoordinator} (same : after.ownership = coordinator.ownership)
      (claimsNone : ∀ owner meetingId, action.claims owner meetingId = false) {threw : Bool} :
      OwnershipEffect coordinator action threw after.ownership :=
    .of_unclaiming same claimsNone
  cases shows : onlyShows action with
  | true =>
    refine unclaiming ((congrArg Prod.fst (holdings_of_onlyShows stepped shows)).trans ?_) ?_
    · cases action <;> rfl
    · cases action <;> first | exact fun _ _ => rfl | cases shows
  | false =>
    cases action with
    | start config owner =>
      cases stepped
      exact start_ownership coordinator config owner
    | assertMeetingOwner meetingId sender =>
      cases stepped
      exact assertMeetingOwner_ownership coordinator meetingId sender
    | appendAudio frame sender createId =>
      cases stepped
      exact unclaiming (ownership_appendAudio _ _ _ _) fun _ _ => rfl
    | stop sender =>
      cases stepped
      exact unclaiming (ownership_stop _ _) fun _ _ => rfl
    | ownerDestroyed owner =>
      cases stepped
      exact ownerDestroyed_ownership coordinator owner _
    | clearFinalizedMeeting meetingId =>
      cases stepped
      exact clearFinalizedMeeting_ownership coordinator meetingId _
    | acknowledgeAudioAssetsPersisted meetingId =>
      cases stepped
      exact acknowledge_ownership coordinator meetingId _
    | writeFailed call =>
      simp only [step] at stepped
      split at stepped <;> cases stepped
      refine unclaiming ?_ fun _ _ => rfl
      exact congrArg Prod.fst (holdings_refreshElapsed (coordinator.settle call))
    | meetingFinalized call assets =>
      simp only [step] at stepped
      have stored := fun snapshotObject => congrArg Prod.fst
        (holdings_storeAssets (coordinator.settle call) snapshotObject assets)
      split at stepped <;> cases stepped
      · refine unclaiming ?_ fun _ _ => rfl
        exact (ownership_broadcast _ true).trans (stored _)
      · refine unclaiming ?_ fun _ _ => rfl
        rw [finalizeResolved, ownership_continueOwnerDestroyed]
        exact (congrArg Prod.fst (holdings_broadcastAndReturn _)).trans (stored _)
    | finalizationFailed call recoveredAssets =>
      simp only [step] at stepped
      split at stepped <;> cases stepped
      · refine unclaiming ?_ fun _ _ => rfl
        exact ownership_broadcast _ true
      · refine unclaiming ?_ fun _ _ => rfl
        rw [finalizeRejected, ownership_continueOwnerDestroyed]
        exact ownership_broadcast _ true
    | ownerDestroyedContinues call =>
      simp only [step] at stepped
      split at stepped
      · rename_i awaited
        cases stepped
        rw [ownership_releaseOwner]
        exact .released (by simp [destroyed, awaited])
      · cases stepped
    | _ => cases shows

/-! ## Refusals -/

theorem claimMeeting_eq_none_of_held (held : coordinator.meetingOwners.get? meetingId = some owner)
    (foreign : sender ≠ owner) : coordinator.claimMeeting meetingId sender = none := by
  unfold claimMeeting
  rw [if_pos]
  simpa [held] using foreign.symm

/-- A meeting in the map refuses the windows that are not its owner. -/
theorem refuses_of_held (consistent : coordinator.ownership.Consistent)
    (held : coordinator.meetingOwners.get? meetingId = some owner) (foreign : sender ≠ owner) :
    Refuses coordinator meetingId sender := by
  have notOwned (shown : coordinator.snapshot.meetingId = some meetingId) :
      coordinator.snapshot.ownerWebContentsId ≠ some sender := by
    have owned : coordinator.snapshot.ownerWebContentsId = some owner :=
      (consistent meetingId shown).trans held
    rw [owned]
    intro same
    exact foreign (Option.some.inj same).symm
  constructor
  case start =>
    rintro config rfl
    by_cases active : coordinator.isActive = true
    · refine ⟨"Another live meeting is already active", ?_⟩
      unfold start
      rw [if_pos active, if_neg]
      · rfl
      · simpa using notOwned
    · refine ⟨ownedByAnotherWindow, ?_⟩
      unfold start
      rw [if_neg active, claimMeeting_eq_none_of_held held foreign]
      rfl
  case assertMeetingOwner =>
    refine ⟨ownedByAnotherWindow, ?_⟩
    unfold assertMeetingOwner
    rw [claimMeeting_eq_none_of_held held foreign]
    rfl
  case appendAudio =>
    intro _ shown frame createId
    exact ⟨ownedByAnotherWindow, if_pos (notOwned shown)⟩
  case pause =>
    intro _ shown createId
    exact ⟨ownedByAnotherWindow, if_pos (notOwned shown)⟩
  case resume =>
    intro _ shown createId
    exact ⟨ownedByAnotherWindow, if_pos (notOwned shown)⟩
  case stop =>
    intro _ shown
    exact ⟨ownedByAnotherWindow, if_pos (notOwned shown)⟩

end LiveCaptureCoordinator

/-! ## Runs -/

theorem claimed_append (ends : CallRecord → Bool) (owner : Nat) (meetingId : String)
    (trace : List CallRecord) (record : CallRecord) :
    claimed ends owner meetingId (trace ++ [record]) =
      (record.action.claims owner meetingId && !record.threw ||
        claimed ends owner meetingId trace && !ends record) := by
  simp [claimed]

/-- The owners agree, and the map keeps every claim that has not ended. -/
structure KeepsClaims (config : Config LiveCaptureCoordinator CallRecord) : Prop where
  consistent : config.state.ownership.Consistent
  held : ∀ owner meetingId, claimed (ended owner meetingId) owner meetingId config.trace →
    config.state.meetingOwners.get? meetingId = some owner

theorem consistent_new (host : Host) (recoveredAssets : List LiveAudioAsset)
    (hasListener : Bool) (now : Number) :
    (LiveCaptureCoordinator.new host recoveredAssets hasListener now).ownership.Consistent := by
  intro meetingId _
  change (LiveCaptureCoordinator.recoveredSnapshot _).ownerWebContentsId = none
  unfold LiveCaptureCoordinator.recoveredSnapshot
  split
  · rfl
  · split <;> rfl

theorem keepsClaims_of_reaches {host : Host} {recoveredAssets : List LiveAudioAsset}
    {hasListener : Bool} {now : Number} {config : Config LiveCaptureCoordinator CallRecord}
    (reaches : Reaches calls anyCall
      (LiveCaptureCoordinator.new host recoveredAssets hasListener now) config) :
    KeepsClaims config := by
  refine reaches.invariant KeepsClaims ?_ ?_
  · exact ⟨consistent_new host recoveredAssets hasListener now, by simp [claimed]⟩
  · intro config next sent _ before advanced _
    obtain ⟨emitted, stepped, traceEq⟩ := advance_eq_some_iff.mp advanced
    simp only [calls, Option.map_eq_some_iff, Prod.mk.injEq] at stepped
    obtain ⟨outcome, stepped, stateEq, rfl⟩ := stepped
    have effect := LiveCaptureCoordinator.step_ownership stepped
    rw [stateEq] at effect
    constructor
    · exact Ownership.consistent_of_effect effect before.consistent
    · intro owner meetingId isClaimed
      rw [traceEq, claimed_append] at isClaimed
      simp only [Bool.or_eq_true, Bool.and_eq_true, Bool.not_eq_true'] at isClaimed
      rcases isClaimed with ⟨claims, unthrown⟩ | ⟨earlier, remains⟩
      · rw [unthrown] at effect
        exact Ownership.claimed_of_effect effect before.consistent claims
      · simp only [ended, Bool.or_eq_false_iff, decide_eq_false_iff_not] at remains
        exact Ownership.held_of_effect effect (before.held owner meetingId earlier) remains.1
          remains.2

/-- Whatever calls are made and whatever the store answers: a meeting that a
window has claimed refuses all other windows until the owner is destroyed or
the meeting is cleared or acknowledged. -/
theorem exclusive_until_ended (host : Host) (recoveredAssets : List LiveAudioAsset)
    (hasListener : Bool) (now : Number) (config : Config LiveCaptureCoordinator CallRecord)
    (reaches : Reaches calls anyCall
      (LiveCaptureCoordinator.new host recoveredAssets hasListener now) config) :
    Exclusive ended config := by
  intro owner meetingId isClaimed sender foreign
  have keeps := keepsClaims_of_reaches reaches
  exact LiveCaptureCoordinator.refuses_of_held keeps.consistent
    (keeps.held owner meetingId isClaimed) foreign

/-! ## Recorded runs -/

instance : ∀ config action next, Decidable (anyCall config action next) :=
  fun _ _ _ => isTrue trivial

/-- A second window tries to use the meeting that the first one records. -/
def contestedCapture : List SentAction :=
  [⟨1, recordedStart⟩, ⟨1, .meetingStarted 0⟩, ⟨1, recordedAppend 0 0⟩,
    ⟨1, .frameWritten 1 recordedBytes⟩, ⟨2, .assertMeetingOwner "meeting-1" 2⟩]

theorem exclusive_contestedCapture :
    ∃ config, exec calls (Config.initial recordedCoordinator) contestedCapture = some config ∧
      claimed (ended 1 "meeting-1") 1 "meeting-1" config.trace ∧ Exclusive ended config := by
  obtain ⟨config, executed⟩ :=
    Option.isSome_iff_exists.mp (show (exec calls (Config.initial recordedCoordinator)
      contestedCapture).isSome by decide +kernel)
  have held : ∃ config ∈ exec calls (Config.initial recordedCoordinator) contestedCapture,
      claimed (ended 1 "meeting-1") 1 "meeting-1" config.trace := by decide +kernel
  obtain ⟨held, heldExecuted, isClaimed⟩ := held
  cases executed.symm.trans heldExecuted
  exact ⟨config, executed, isClaimed, exclusive_until_ended recordedHost [] true 1000 config
    (reaches_of_exec contestedCapture (by decide +kernel) executed)⟩

/-- The first window deletes its meeting and is destroyed while the store still
removes the files; the second window claims the meeting, and the deletion then
clears it. -/
def clearedLate : List SentAction :=
  [⟨1, recordedStart⟩, ⟨1, .startFailed 0⟩, ⟨1, .assertMeetingOwner "meeting-1" 1⟩,
    ⟨1, .ownerDestroyed 1⟩, ⟨2, .assertMeetingOwner "meeting-1" 2⟩,
    ⟨1, .clearFinalizedMeeting "meeting-1"⟩]

theorem not_exclusive_of_clearedLate : ∃ config, Reaches calls anyCall recordedCoordinator config ∧
      ¬Exclusive endedByOwner config := by
  obtain ⟨config, reaches, isClaimed, accepted⟩ := exists_reaches_of_exec calls anyCall
    recordedCoordinator
    (fun config => claimed (endedByOwner 2 "meeting-1") 2 "meeting-1" config.trace ∧
      (config.state.assertMeetingOwner "meeting-1" 3).2 = [])
    clearedLate (by decide +kernel) (by decide +kernel)
  refine ⟨config, reaches, fun exclusive => ?_⟩
  obtain ⟨message, thrown⟩ := (exclusive 2 "meeting-1" isClaimed 3 (by decide)).assertMeetingOwner
  rw [thrown] at accepted
  cases accepted

end Obelus.Live.Capture
