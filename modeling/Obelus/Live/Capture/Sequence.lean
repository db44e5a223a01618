import Obelus.Live.Capture.Ownership

/-!
# Suspended frames

Which frames wait for the store to write them.  A frame is suspended only when
`appendAudio` hands it over, under an identity no earlier call had; every other
segment keeps or settles the suspended frames.
-/

namespace Obelus.Live.Capture

open Obelus.Data
open Obelus.Transition

/-- A call waits for the store to write its frame. -/
def CaptureAwait.isFrame : CaptureAwait → Bool
  | .appendFrame _ _ _ => true
  | _ => false

def CaptureAction.appends : CaptureAction → Bool
  | .appendAudio _ _ _ => true
  | _ => false

namespace LiveCaptureCoordinator

/-- The suspended calls and the identity of the next one. -/
def suspended (coordinator : LiveCaptureCoordinator) : List CaptureCall × Nat :=
  (coordinator.calls, coordinator.nextCall)

/-- No frame is suspended that was not suspended before. -/
structure KeepsFrames (before after : List CaptureCall × Nat) : Prop where
  nextCall : before.2 ≤ after.2
  calls : ∀ pending ∈ after.1, pending.await.isFrame → pending ∈ before.1

theorem KeepsFrames.refl (calls : List CaptureCall × Nat) : KeepsFrames calls calls :=
  ⟨le_refl _, fun _ member _ => member⟩

theorem KeepsFrames.of_eq {before after : List CaptureCall × Nat} (same : after = before) :
    KeepsFrames before after :=
  same ▸ .refl _

theorem KeepsFrames.trans {before between after : List CaptureCall × Nat}
    (first : KeepsFrames before between) (second : KeepsFrames between after) :
    KeepsFrames before after where
  nextCall := first.nextCall.trans second.nextCall
  calls := fun pending member isFrame =>
    first.calls pending (second.calls pending member isFrame) isFrame

section

variable (coordinator : LiveCaptureCoordinator)

theorem suspended_broadcast (immediate : Bool) :
    (coordinator.broadcast immediate).1.suspended = coordinator.suspended :=
  congrArg Prod.snd (holdings_broadcast coordinator immediate)

theorem suspended_returnSnapshot :
    coordinator.returnSnapshot.1.suspended = coordinator.suspended :=
  congrArg Prod.snd (holdings_refreshElapsed coordinator)

theorem keepsFrames_suspend {await : CaptureAwait} (notFrame : await.isFrame = false) :
    KeepsFrames coordinator.suspended (coordinator.suspend await).suspended where
  nextCall := Nat.le_succ _
  calls := by
    intro pending member isFrame
    rcases List.mem_append.mp member with earlier | new
    · exact earlier
    · rw [List.mem_singleton.mp new, notFrame] at isFrame
      cases isFrame

theorem keepsFrames_settle (call : Nat) :
    KeepsFrames coordinator.suspended (coordinator.settle call).suspended where
  nextCall := le_refl _
  calls := fun _ member _ => (List.mem_filter.mp member).1

theorem keepsFrames_continueOwnerDestroyed (destroyedOwner : Option Nat) :
    KeepsFrames coordinator.suspended
      (coordinator.continueOwnerDestroyed destroyedOwner).suspended := by
  cases destroyedOwner with
  | none => exact .refl _
  | some owner => exact keepsFrames_suspend _ rfl

theorem suspended_releaseOwner (owner : Nat) :
    (coordinator.releaseOwner owner).1.suspended = coordinator.suspended := by
  unfold releaseOwner
  dsimp only
  split
  · rw [suspended_broadcast]
    rfl
  · rfl

end

variable {coordinator : LiveCaptureCoordinator}

theorem suspended_claimMeeting {claimed : LiveCaptureCoordinator} {meetingId : String}
    {sender : Nat} (claims : coordinator.claimMeeting meetingId sender = some claimed) :
    claimed.suspended = coordinator.suspended := by
  unfold claimMeeting at claims
  split at claims
  · cases claims
  · split at claims <;> cases claims
    rfl

section

variable (coordinator)

theorem keepsFrames_start (config : LiveCaptureStartConfig) (owner : Nat) :
    KeepsFrames coordinator.suspended (coordinator.start config owner).1.suspended := by
  unfold start
  split
  · split
    · exact .of_eq (suspended_returnSnapshot _)
    · exact .refl _
  · cases claims : coordinator.claimMeeting config.meetingId owner with
    | none => exact .refl _
    | some claimed =>
      have begun : ((claimed.beginCapture config owner).broadcast true).1.suspended =
          coordinator.suspended := by
        have same := suspended_claimMeeting claims
        rw [suspended_broadcast]
        exact same
      rw [← begun]
      exact keepsFrames_suspend _ rfl

theorem keepsFrames_finalize (meetingId : String) (lifecycle : FinalLifecycle)
    (destroyedOwner : Option Nat) : KeepsFrames coordinator.suspended
      (coordinator.finalize meetingId lifecycle destroyedOwner).1.suspended := by
  have begun : (coordinator.beginStopping.broadcast true).1.suspended =
      coordinator.suspended := by
    rw [suspended_broadcast]
    rfl
  rw [← begun]
  exact keepsFrames_suspend _ rfl

theorem keepsFrames_stop (sender : Nat) :
    KeepsFrames coordinator.suspended (coordinator.stop sender).1.suspended := by
  unfold stop
  split
  · exact .refl _
  split
  · exact .refl _
  split
  · exact .of_eq (suspended_returnSnapshot _)
  split
  · exact .of_eq (suspended_returnSnapshot _)
  split
  · exact .refl _
  split
  · exact .refl _
  · exact keepsFrames_finalize { coordinator with stopPromise := true } _ _ _

theorem keepsFrames_ownerDestroyed (owner : Nat) :
    KeepsFrames coordinator.suspended (coordinator.ownerDestroyed owner).1.suspended := by
  unfold ownerDestroyed
  split
  · split
    · exact keepsFrames_suspend { coordinator with stopPromise := true } rfl
    · exact keepsFrames_finalize { coordinator with stopPromise := true } _ _ _
  · exact .of_eq (suspended_releaseOwner _ _)

theorem suspended_clearFinalizedMeeting (meetingId : String) :
    (coordinator.clearFinalizedMeeting meetingId).1.suspended = coordinator.suspended := by
  unfold clearFinalizedMeeting
  split
  · rfl
  · split
    · rfl
    · exact suspended_broadcast _ true

theorem suspended_acknowledgeAudioAssetsPersisted (meetingId : String) :
    (coordinator.acknowledgeAudioAssetsPersisted meetingId).1.suspended =
      coordinator.suspended := by
  have released : (coordinator.releaseMeeting meetingId).suspended = coordinator.suspended := by
    unfold releaseMeeting
    split <;> rfl
  unfold acknowledgeAudioAssetsPersisted
  split
  · rfl
  · split
    · exact (suspended_broadcast _ true).trans released
    · exact (suspended_broadcast _ true).trans released

theorem keepsFrames_appendRejected (frame : LiveAudioFrame) :
    KeepsFrames coordinator.suspended (coordinator.appendRejected frame).1.suspended := by
  unfold appendRejected
  rw [refreshElapsed_eq]
  exact keepsFrames_suspend _ rfl

theorem keepsFrames_finalizeResolved (lifecycle : FinalLifecycle) (destroyedOwner : Option Nat)
    (snapshotObject : Nat) (assets : List LiveAudioAsset) : KeepsFrames coordinator.suspended
      (coordinator.finalizeResolved lifecycle destroyedOwner snapshotObject
        assets).1.suspended := by
  have ended : (coordinator.endCapture lifecycle snapshotObject
      assets).broadcastAndReturn.1.suspended = coordinator.suspended := by
    have stored := congrArg Prod.snd (holdings_storeAssets coordinator snapshotObject assets)
    exact (congrArg Prod.snd (holdings_broadcastAndReturn _)).trans stored
  rw [← ended]
  exact keepsFrames_continueOwnerDestroyed _ _

theorem keepsFrames_finalizeRejected (destroyedOwner : Option Nat)
    (recoveredAssets : Option (List LiveAudioAsset)) : KeepsFrames coordinator.suspended
      (coordinator.finalizeRejected destroyedOwner recoveredAssets).1.suspended := by
  refine KeepsFrames.trans ?_ (keepsFrames_continueOwnerDestroyed _ _)
  apply KeepsFrames.of_eq
  exact suspended_broadcast _ true

/-- Only an accepted frame is suspended, under the identity it is handed over
with. -/
theorem appendAudio_suspended (frame : LiveAudioFrame) (sender : Nat) (createId : String) :
    ((coordinator.appendAudio frame sender createId).1.suspended = coordinator.suspended ∧
        marks (coordinator.appendAudio frame sender createId).2 = []) ∨
      ∃ activationEpochMs droppedFrames,
        (coordinator.appendAudio frame sender createId).1.suspended =
            (coordinator.calls ++
              [⟨coordinator.nextCall, .appendFrame frame activationEpochMs droppedFrames⟩],
            coordinator.nextCall + 1) ∧
          marks (coordinator.appendAudio frame sender createId).2 =
            [.handed coordinator.nextCall frame] := by
  unfold appendAudio
  split
  · exact .inl ⟨rfl, rfl⟩
  split
  · exact .inl ⟨rfl, rfl⟩
  split
  · exact .inl ⟨rfl, rfl⟩
  split
  · exact .inr ⟨_, _, rfl, rfl⟩
  split
  · exact .inl ⟨rfl, rfl⟩
  split
  · exact .inl ⟨rfl, rfl⟩
  · exact .inr ⟨_, _, rfl, rfl⟩

end

/-- What a segment does to the suspended frames. -/
theorem step_suspended {action : CaptureAction} {outcome : Outcome}
    (stepped : step coordinator action = some outcome) :
    (KeepsFrames coordinator.suspended outcome.1.suspended ∧
        (action.appends → marks outcome.2 = [])) ∨
      ∃ frame activationEpochMs droppedFrames,
        outcome.1.suspended =
            (coordinator.calls ++
              [⟨coordinator.nextCall, .appendFrame frame activationEpochMs droppedFrames⟩],
            coordinator.nextCall + 1) ∧
          marks outcome.2 = [.handed coordinator.nextCall frame] := by
  have settles (call : Nat) {after : LiveCaptureCoordinator}
      (keeps : KeepsFrames (coordinator.settle call).suspended after.suspended) :
      KeepsFrames coordinator.suspended after.suspended :=
    (keepsFrames_settle coordinator call).trans keeps
  have silent {emitted : List CaptureObservation} : false = true → marks emitted = [] :=
    fun appends => absurd appends Bool.false_ne_true
  cases shows : onlyShows action with
  | true =>
    refine .inl ⟨KeepsFrames.trans ?_
      (.of_eq (congrArg Prod.snd (holdings_of_onlyShows stepped shows))), ?_⟩
    · cases action <;> first | exact .refl _ | exact keepsFrames_settle coordinator _
    · cases action <;> first | exact silent | cases shows
  | false =>
    cases action with
    | start config owner =>
      cases stepped
      exact .inl ⟨keepsFrames_start coordinator config owner, silent⟩
    | appendAudio frame sender createId =>
      cases stepped
      rcases appendAudio_suspended coordinator frame sender createId with
        unchanged | ⟨activationEpochMs, droppedFrames, suspends, handed⟩
      · exact .inl ⟨.of_eq unchanged.1, fun _ => unchanged.2⟩
      · exact .inr ⟨frame, activationEpochMs, droppedFrames, suspends, handed⟩
    | stop sender =>
      cases stepped
      exact .inl ⟨keepsFrames_stop coordinator sender, silent⟩
    | ownerDestroyed owner =>
      cases stepped
      exact .inl ⟨keepsFrames_ownerDestroyed coordinator owner, silent⟩
    | assertMeetingOwner meetingId sender =>
      cases stepped
      unfold assertMeetingOwner
      cases claims : coordinator.claimMeeting meetingId sender with
      | none => exact .inl ⟨.refl _, silent⟩
      | some claimed => exact .inl ⟨.of_eq (suspended_claimMeeting claims), silent⟩
    | clearFinalizedMeeting meetingId =>
      cases stepped
      exact .inl ⟨.of_eq (suspended_clearFinalizedMeeting coordinator meetingId), silent⟩
    | acknowledgeAudioAssetsPersisted meetingId =>
      cases stepped
      exact .inl ⟨.of_eq (suspended_acknowledgeAudioAssetsPersisted coordinator meetingId), silent⟩
    | writeFailed call =>
      simp only [step] at stepped
      split at stepped <;> cases stepped
      exact .inl ⟨settles call (keepsFrames_appendRejected _ _), silent⟩
    | meetingFinalized call assets =>
      simp only [step] at stepped
      split at stepped <;> cases stepped
      · refine .inl ⟨settles call (.of_eq ?_), silent⟩
        exact (suspended_broadcast _ true).trans (congrArg Prod.snd (holdings_storeAssets _ _ _))
      · exact .inl ⟨settles call (keepsFrames_finalizeResolved _ _ _ _ _), silent⟩
    | finalizationFailed call recoveredAssets =>
      simp only [step] at stepped
      split at stepped <;> cases stepped
      · exact .inl ⟨settles call (.of_eq (suspended_broadcast _ true)), silent⟩
      · exact .inl ⟨settles call (keepsFrames_finalizeRejected _ _ _), silent⟩
    | ownerDestroyedContinues call =>
      simp only [step] at stepped
      split at stepped <;> cases stepped
      exact .inl ⟨settles call (.of_eq (suspended_releaseOwner _ _)), silent⟩
    | _ => cases shows

end LiveCaptureCoordinator

/-!
## The order of written frames

`appendAudio` tells a duplicate from the last sequence recorded for its capture
session, which it reads before the await of the store and records after it.
The frames of a session therefore reach the store in order only as long as no
frame overtakes one that is not recorded yet: a frame that waits for its write,
one whose write failed, or one that was recorded before the sequences were
cleared.
-/

open Obelus.Data List

/-- The frames handed to the store, with the identities of their calls. -/
def handedFrames (trace : List CaptureObservation) : List (Nat × LiveAudioFrame) :=
  trace.filterMap fun
    | .handed call frame => some (call, frame)
    | _ => none

def readRecorded (recorded : List Nat) : CaptureObservation → List Nat
  | .started _ _ | .cleared => []
  | .written call _ => recorded ++ [call]
  | _ => recorded

/-- The calls whose frames were recorded since the sequences were cleared. -/
def recordedCalls (trace : List CaptureObservation) : List Nat :=
  trace.foldl readRecorded []

theorem handedFrames_append (trace observed : List CaptureObservation) :
    handedFrames (trace ++ observed) = handedFrames trace ++ handedFrames (marks observed) := by
  have unmarked : handedFrames observed = handedFrames (marks observed) := by
    induction observed with
    | nil => rfl
    | cons observation rest ih =>
      simp only [handedFrames] at ih
      cases observation <;> simp [handedFrames, CaptureObservation.isMark, ih]
  rw [handedFrames, filterMap_append, ← unmarked]
  rfl

theorem recordedCalls_append (trace observed : List CaptureObservation) :
    recordedCalls (trace ++ observed) =
      (marks observed).foldl readRecorded (recordedCalls trace) := by
  have unmarked : ∀ value observation, CaptureObservation.isMark observation = false →
      readRecorded value observation = value := by
    intro value observation unmarked
    cases observation <;> first | rfl | cases unmarked
  simp only [recordedCalls, foldl_append]
  exact foldl_eq_foldl_marks unmarked _ _

/-- The frames of each session are handed over in order, so that none is handed
over twice. -/
structure FramesInOrder (config : Config LiveCaptureCoordinator CaptureObservation) : Prop where
  increasing : ∀ session, (((handedFrames config.trace).filter
    fun handed => handed.2.captureSessionId = session).map fun handed =>
      handed.2.sequence).Pairwise (· < ·)
  once : ((handedFrames config.trace).map fun handed =>
    (handed.2.captureSessionId, handed.2.sequence)).Nodup

/-- Every frame may be delivered at any time. -/
def anyDelivery : Guard LiveCaptureCoordinator CaptureAction CaptureObservation :=
  fun _ _ _ => True

/-- An accepted frame follows every frame of its session that was handed over
and is not recorded. -/
def FollowsUnrecorded (config : Config LiveCaptureCoordinator CaptureObservation) :
    CaptureAction → Prop
  | .appendAudio frame sender _ =>
    Accepts config.state frame sender →
      ∀ earlier ∈ handedFrames config.trace,
        earlier.2.captureSessionId = frame.captureSessionId →
          earlier.1 ∉ recordedCalls config.trace → earlier.2.sequence < frame.sequence
  | _ => True

/-- A frame is recorded after the frames of its session that precede it. -/
def RecordsForward (coordinator : LiveCaptureCoordinator) : CaptureAction → Prop
  | .frameWritten call _ =>
    match coordinator.awaiting call with
    | some (.appendFrame frame _ _) =>
      ∀ prior ∈ coordinator.sequences.get? frame.captureSessionId,
        prior.lastSequence ≤ frame.sequence
    | _ => True
  | _ => True

/-- No frame overtakes an unrecorded one of its session, neither when it is
handed over nor when it is recorded. -/
def withoutOvertaking : Guard LiveCaptureCoordinator CaptureAction CaptureObservation :=
  fun config action _ =>
    FollowsUnrecorded config action ∧ RecordsForward config.state action

/-! ## The invariant -/

/-- What the recorded sequences and the suspended calls say of the frames that
were handed over. -/
structure Sequenced (sequences : JsMap String CaptureSessionSequence)
    (suspended : List CaptureCall × Nat) (handed : List (Nat × LiveAudioFrame))
    (recorded : List Nat) : Prop where
  distinct : (handed.map Prod.fst).Nodup
  earlier : ∀ frame ∈ handed, frame.1 < suspended.2
  pending : ∀ pending ∈ suspended.1, ∀ frame activationEpochMs droppedFrames,
    pending.await = .appendFrame frame activationEpochMs droppedFrames →
      (pending.id, frame) ∈ handed
  known : ∀ call ∈ recorded, call ∈ handed.map Prod.fst
  covered : ∀ frame ∈ handed, frame.1 ∈ recorded →
    ∃ prior ∈ sequences.get? frame.2.captureSessionId, frame.2.sequence ≤ prior.lastSequence
  increasing : handed.Pairwise fun before after =>
    before.2.captureSessionId = after.2.captureSessionId →
      before.2.sequence < after.2.sequence

variable {sequences : JsMap String CaptureSessionSequence}
  {suspended after : List CaptureCall × Nat} {handed : List (Nat × LiveAudioFrame)}
  {recorded : List Nat}

theorem Sequenced.keep (before : Sequenced sequences suspended handed recorded)
    (keeps : LiveCaptureCoordinator.KeepsFrames suspended after) :
    Sequenced sequences after handed recorded :=
  { before with
    earlier := fun frame member => (before.earlier frame member).trans_le keeps.nextCall
    pending := fun pending member frame activationEpochMs droppedFrames awaits =>
      before.pending pending (keeps.calls pending member (by simp [awaits, CaptureAwait.isFrame]))
        frame activationEpochMs droppedFrames awaits }

theorem Sequenced.clear (before : Sequenced sequences suspended handed recorded) :
    Sequenced JsMap.empty suspended handed [] :=
  { before with
    known := forall_mem_nil _
    covered := fun _ _ member => absurd member not_mem_nil }

variable {frame : LiveAudioFrame} {activationEpochMs : Option Number} {droppedFrames call : Nat}
  {coordinator : LiveCaptureCoordinator}

/-- A frame that is handed over follows the recorded frames of its session by
the duplicate test, and the others by assumption. -/
theorem Sequenced.hand (before : Sequenced sequences suspended handed recorded)
    (newer : ∀ prior ∈ sequences.get? frame.captureSessionId, prior.lastSequence < frame.sequence)
    (follows : ∀ earlier ∈ handed, earlier.2.captureSessionId = frame.captureSessionId →
      earlier.1 ∉ recorded → earlier.2.sequence < frame.sequence) : Sequenced sequences
      (suspended.1 ++ [⟨suspended.2, .appendFrame frame activationEpochMs droppedFrames⟩],
        suspended.2 + 1)
      (handed ++ [(suspended.2, frame)]) recorded := by
  have fresh : suspended.2 ∉ handed.map Prod.fst := by
    intro member
    obtain ⟨earlier, earlierMember, same⟩ := mem_map.mp member
    exact absurd (before.earlier earlier earlierMember) (by omega)
  have unrecorded : suspended.2 ∉ recorded := fun member => fresh (before.known _ member)
  refine ⟨?_, ?_, ?_, ?_, ?_, ?_⟩
  · rw [map_append]
    exact nodup_snoc before.distinct fresh
  · intro member memberOf
    rcases mem_append.mp memberOf with earlier | new
    · exact (before.earlier member earlier).trans (Nat.lt_succ_self _)
    · rw [mem_singleton.mp new]
      exact Nat.lt_succ_self _
  · intro pending member pendingFrame pendingEpochMs pendingDropped awaits
    rcases mem_append.mp member with earlier | new
    · exact mem_append_left _
        (before.pending pending earlier pendingFrame pendingEpochMs pendingDropped awaits)
    · rw [mem_singleton.mp new] at awaits ⊢
      cases awaits
      exact mem_append_right _ (mem_singleton_self _)
  · intro call member
    rw [map_append]
    exact mem_append_left _ (before.known call member)
  · intro member memberOf isRecorded
    rcases mem_append.mp memberOf with earlier | new
    · exact before.covered member earlier isRecorded
    · rw [mem_singleton.mp new] at isRecorded
      exact absurd isRecorded unrecorded
  · rw [pairwise_append]
    refine ⟨before.increasing, pairwise_singleton _ _, ?_⟩
    intro earlier member later isNew sameSession
    rw [mem_singleton.mp isNew] at sameSession ⊢
    by_cases isRecorded : earlier.1 ∈ recorded
    · obtain ⟨prior, found, covers⟩ := before.covered earlier member isRecorded
      rw [sameSession] at found
      exact covers.trans_lt (newer prior found)
    · exact follows earlier member sameSession isRecorded

/-- Recording a frame covers it and the recorded frames of its session. -/
theorem Sequenced.record (before : Sequenced sequences suspended handed recorded)
    {value : CaptureSessionSequence} (waiting : (call, frame) ∈ handed)
    (valueEq : value.lastSequence = frame.sequence)
    (forward : ∀ prior ∈ sequences.get? frame.captureSessionId,
      prior.lastSequence ≤ frame.sequence) :
    Sequenced (sequences.set frame.captureSessionId value) suspended handed
      (recorded ++ [call]) := by
  refine { before with known := ?_, covered := ?_ }
  · intro member memberOf
    rcases mem_append.mp memberOf with earlier | new
    · exact before.known member earlier
    · rw [mem_singleton.mp new]
      exact mem_map_of_mem waiting
  · intro member memberOf isRecorded
    rw [JsMap.get?_set]
    by_cases sameSession : member.2.captureSessionId = frame.captureSessionId
    · rw [if_pos sameSession]
      refine ⟨value, rfl, ?_⟩
      rw [valueEq]
      rcases mem_append.mp isRecorded with earlier | new
      · obtain ⟨prior, found, covers⟩ := before.covered member memberOf earlier
        rw [sameSession] at found
        exact covers.trans (forward prior found)
      · have same : member = (call, frame) :=
          inj_on_of_nodup_map before.distinct memberOf waiting (mem_singleton.mp new)
        rw [same]
    · rw [if_neg sameSession]
      rcases mem_append.mp isRecorded with earlier | new
      · exact before.covered member memberOf earlier
      · have same : member = (call, frame) :=
          inj_on_of_nodup_map before.distinct memberOf waiting (mem_singleton.mp new)
        exact absurd (by rw [same]) sameSession

theorem pending_of_awaiting (before : Sequenced sequences coordinator.suspended handed recorded)
    (awaited : coordinator.awaiting call =
      some (.appendFrame frame activationEpochMs droppedFrames)) : (call, frame) ∈ handed := by
  obtain ⟨pending, found, awaits⟩ := Option.map_eq_some_iff.mp awaited
  obtain ⟨member, rfl⟩ := lookup_eq_some found
  exact before.pending pending member frame activationEpochMs droppedFrames awaits

/-- The recorded sequences and the suspended frames after an effect. -/
theorem Effect.sequenced {action : CaptureAction} {view : CaptureView}
    {observed : List CaptureObservation} (effect : Effect coordinator action view observed)
    (before : Sequenced coordinator.view.sequences coordinator.suspended handed recorded)
    (calls : (LiveCaptureCoordinator.KeepsFrames coordinator.suspended after ∧
        (action.appends → observed = [])) ∨
      ∃ frame activationEpochMs droppedFrames,
        after = (coordinator.calls ++
            [⟨coordinator.nextCall, .appendFrame frame activationEpochMs droppedFrames⟩],
          coordinator.nextCall + 1) ∧
        observed = [.handed coordinator.nextCall frame])
    (follows : ∀ frame sender createId, action = .appendAudio frame sender createId →
      Accepts coordinator frame sender → ∀ earlier ∈ handed,
        earlier.2.captureSessionId = frame.captureSessionId →
          earlier.1 ∉ recorded → earlier.2.sequence < frame.sequence)
    (forward : RecordsForward coordinator action) :
    Sequenced view.sequences after (handed ++ handedFrames observed)
      (observed.foldl readRecorded recorded) := by
  rcases calls with ⟨keeps, unhanded⟩ | ⟨frame, activationEpochMs, droppedFrames, rfl, rfl⟩
  · have kept := before.keep keeps
    cases effect with
    | started _ => simpa [handedFrames, readRecorded] using kept.clear
    | cleared _ _ => simpa [handedFrames, readRecorded] using kept.clear
    | handed _ => cases unhanded rfl
    | written awaited _ =>
      have waiting := pending_of_awaiting before awaited
      simp only [RecordsForward, awaited] at forward
      simpa [handedFrames, readRecorded, CaptureView.recordSequence] using
        kept.record waiting rfl forward
    | activated awaited =>
      have waiting := pending_of_awaiting before awaited
      simp only [RecordsForward, awaited] at forward
      simpa [handedFrames, readRecorded, CaptureView.recordSequence] using
        kept.record waiting rfl forward
    | settled | paused | resumed | stopping | slept | woken | writeFailed | failed | finalized =>
      simpa [handedFrames, readRecorded, CaptureView.clearTimers] using kept
  · cases effect with
    | @handed _ sender createId accepted =>
      exact before.hand (fun prior found => (accepted.2.2.2 prior found).1)
        (follows frame sender createId rfl accepted)

section Runs

variable {host : Host} {recoveredAssets : List LiveAudioAsset} {hasListener : Bool}
  {now : Number} {config : Config LiveCaptureCoordinator CaptureObservation}

theorem sequenced_of_reaches
    (reaches : Reaches step withoutOvertaking
      (LiveCaptureCoordinator.new host recoveredAssets hasListener now) config) :
    Sequenced config.state.sequences config.state.suspended (handedFrames config.trace)
      (recordedCalls config.trace) := by
  refine reaches.invariant
    (fun config => Sequenced config.state.sequences config.state.suspended
      (handedFrames config.trace) (recordedCalls config.trace)) ?_ ?_
  · exact
      { distinct := nodup_nil
        earlier := forall_mem_nil _
        pending := forall_mem_nil _
        known := forall_mem_nil _
        covered := forall_mem_nil _
        increasing := Pairwise.nil }
  · rintro config next action - before advanced ⟨follows, forward⟩
    obtain ⟨emitted, stepped, traceEq⟩ := advance_eq_some_iff.mp advanced
    rw [traceEq, handedFrames_append, recordedCalls_append]
    refine (LiveCaptureCoordinator.step_effect stepped).sequenced before
      (LiveCaptureCoordinator.step_suspended stepped) ?_ forward
    rintro frame sender createId rfl
    exact follows

/-- In every run in which no frame overtakes an unrecorded frame of its
session, the frames of each session are handed over in order and none is handed
over twice. -/
theorem framesInOrder_of_withoutOvertaking (host : Host)
    (recoveredAssets : List LiveAudioAsset) (hasListener : Bool) (now : Number)
    (config : Config LiveCaptureCoordinator CaptureObservation)
    (reaches : Reaches step withoutOvertaking
      (LiveCaptureCoordinator.new host recoveredAssets hasListener now) config) :
    FramesInOrder config := by
  have increasing := (sequenced_of_reaches reaches).increasing
  constructor
  · intro session
    rw [pairwise_map, pairwise_filter]
    refine increasing.imp fun before sameBefore sameAfter => before ?_
    rw [of_decide_eq_true sameBefore, of_decide_eq_true sameAfter]
  · rw [Nodup, pairwise_map]
    refine increasing.imp fun {earlier later} before same => ?_
    have parts := Prod.mk.inj same
    exact absurd parts.2 (before parts.1).ne

end Runs

/-! ## Recorded runs -/

instance : ∀ config action next, Decidable (anyDelivery config action next) :=
  fun _ _ _ => isTrue trivial

instance (config : Config LiveCaptureCoordinator CaptureObservation) (action : CaptureAction) :
    Decidable (FollowsUnrecorded config action) :=
  decidable_of_iff
    (∀ appended ∈ action.appended?, Accepts config.state appended.1 appended.2 →
      ∀ earlier ∈ handedFrames config.trace,
        earlier.2.captureSessionId = appended.1.captureSessionId →
          earlier.1 ∉ recordedCalls config.trace → earlier.2.sequence < appended.1.sequence) (by
    cases action <;> simp [FollowsUnrecorded, CaptureAction.appended?])

/-- The frame an action records. -/
def LiveCaptureCoordinator.written? (coordinator : LiveCaptureCoordinator) :
    CaptureAction → Option LiveAudioFrame
  | .frameWritten call _ => match coordinator.awaiting call with
      | some (.appendFrame frame _ _) => some frame
      | _ => none
  | _ => none

instance (coordinator : LiveCaptureCoordinator) :
    ∀ action, Decidable (RecordsForward coordinator action) :=
  fun action => decidable_of_iff
    (∀ frame ∈ coordinator.written? action,
      ∀ prior ∈ coordinator.sequences.get? frame.captureSessionId,
        prior.lastSequence ≤ frame.sequence) (by
    cases action with
    | frameWritten call bytes =>
      simp only [RecordsForward, LiveCaptureCoordinator.written?]
      split <;> simp
    | _ => simp [RecordsForward, LiveCaptureCoordinator.written?])

instance : ∀ config action next, Decidable (withoutOvertaking config action next) :=
  fun _ _ _ => inferInstanceAs (Decidable (_ ∧ _))

theorem framesInOrder_recordedCapture :
    ∃ config, exec step (Config.initial recordedCoordinator) recordedCapture = some config ∧
      FramesInOrder config := by
  obtain ⟨config, executed⟩ :
      ∃ config, exec step (Config.initial recordedCoordinator) recordedCapture = some config :=
    Option.isSome_iff_exists.mp (by decide +kernel)
  exact ⟨config, executed, framesInOrder_of_withoutOvertaking recordedHost [] true 1000 config
    (reaches_of_exec recordedCapture (by decide +kernel) executed)⟩

/-- A second delivery queue repeats a frame while the store writes it. -/
def redeliveredFrame : List CaptureAction :=
  [recordedStart, .meetingStarted 0, recordedAppend 0 0, .frameWritten 1 recordedBytes,
    recordedAppend 1 20, recordedAppend 1 20]

theorem not_framesInOrder_of_redelivery :
    ∃ config, Reaches step anyDelivery recordedCoordinator config ∧ ¬FramesInOrder config := by
  obtain ⟨config, reaches, repeated⟩ := exists_reaches_of_exec step anyDelivery
    recordedCoordinator
    (fun config => ¬((handedFrames config.trace).map fun handed =>
      (handed.2.captureSessionId, handed.2.sequence)).Nodup)
    redeliveredFrame (by decide +kernel) (by decide +kernel)
  exact ⟨config, reaches, fun inOrder => repeated inOrder.once⟩

end Obelus.Live.Capture
