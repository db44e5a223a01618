import Obelus.Acp.PromptAttempts

/-!
# One prompt of a session at a time

The attempt that is active or being cancelled is the one whose prompt is being called, as
long as no load forgets a cancellation.
-/

namespace Obelus.Acp

open Obelus.Data (JsMap)
open Obelus.Transition List
open AttemptState (activePromptAttemptId pendingCancelPromptAttemptId)

variable {ι : Type}

/-! ## Attempts and their events -/

namespace PromptEvent

variable {attempt : Nat} {errors : List (Option String)}

theorem settled_mem_ofSettled {other : Nat} :
    .settled other ∈ ofSettled attempt errors ↔ other = attempt := by
  simp [ofSettled]

/-- A call that settles neither cancels nor restores. -/
theorem count_ofSettled {event : PromptEvent}
    (notFinished : ∀ error, event ≠ .finished attempt error) (notSettled : event ≠ .settled attempt)
    : (ofSettled attempt errors).count event = 0 := by
  rw [count_eq_zero]
  intro member
  rcases mem_cons.mp member with same | finishes
  · exact notSettled same
  · obtain ⟨error, -, same⟩ := mem_map.mp finishes
    exact notFinished error same.symm

theorem countP_finishes_ofSettled (attempt other : Nat) (errors : List (Option String)) :
    (ofSettled attempt errors).countP (finishes other) =
      if attempt = other then errors.length else 0 := by
  split
  · next same =>
    simp [ofSettled, countP_map, Function.comp_def, finishes, same]
  · next differs =>
    simp [ofSettled, countP_map, Function.comp_def, finishes, differs]

end PromptEvent

/-- The attempts with a call under way and the events so far fit the attempt that is
active or being cancelled. -/
structure Prompted (attempts : Nat) (promptCalls : Finset Nat) (active pendingCancel : Option Nat)
    (trace : List PromptEvent) : Prop where
  exclusive : active = none ∨ pendingCancel = none
  calls : ∀ attempt, attempt ∈ promptCalls ↔ active = some attempt ∨ pendingCancel = some attempt
  made : ∀ attempt ∈ promptCalls, attempt < attempts
  settled : ∀ attempt, .settled attempt ∈ trace → attempt < attempts ∧ attempt ∉ promptCalls
  balance : ∀ attempt, .settled attempt ∉ trace →
    trace.count (.cancelled attempt) =
      trace.count (.restored attempt) + if pendingCancel = some attempt then 1 else 0
  unfinished : ∀ attempt, .settled attempt ∉ trace →
    trace.countP (PromptEvent.finishes attempt) = 0
  atMostOnce : ∀ attempt, trace.countP (PromptEvent.finishes attempt) ≤ 1
  once : ∀ attempt, .settled attempt ∈ trace →
    trace.count (.cancelled attempt) = trace.count (.restored attempt) →
    trace.countP (PromptEvent.finishes attempt) = 1

namespace Prompted

variable {attempts : Nat} {promptCalls : Finset Nat} {active pendingCancel : Option Nat}
  {trace : List PromptEvent}

theorem initial : Prompted 0 ∅ none none [] := by
  constructor <;> simp

theorem start (prompted : Prompted attempts promptCalls none none trace) :
    Prompted (attempts + 1) (insert attempts promptCalls) (some attempts) none trace :=
  { prompted with
    exclusive := .inr rfl
    calls := by
      intro attempt
      have none : attempt ∉ promptCalls := by simp [prompted.calls]
      simp [none, eq_comm]
    made := by
      intro attempt member
      rcases Finset.mem_insert.mp member with rfl | before
      · exact Nat.lt_succ_self _
      · exact Nat.lt_succ_of_lt (prompted.made attempt before)
    settled := by
      intro attempt isSettled
      have before := prompted.settled attempt isSettled
      refine ⟨Nat.lt_succ_of_lt before.1, fun member => ?_⟩
      rcases Finset.mem_insert.mp member with rfl | called
      · exact Nat.lt_irrefl _ before.1
      · exact before.2 called }

variable {attempt : Nat}

theorem notSettled (prompted : Prompted attempts promptCalls active pendingCancel trace)
    (called : attempt ∈ promptCalls) : .settled attempt ∉ trace :=
  fun isSettled => (prompted.settled attempt isSettled).2 called

/-- The active attempt is being cancelled, or one that was is active again. -/
theorem swap {event : PromptEvent}
    (prompted : Prompted attempts promptCalls active pendingCancel trace)
    (swaps : active = some attempt ∧ pendingCancel = none ∧ event = .cancelled attempt ∨
      active = none ∧ pendingCancel = some attempt ∧ event = .restored attempt) :
    Prompted attempts promptCalls pendingCancel active (trace ++ [event]) := by
  have called : attempt ∈ promptCalls := by
    rw [prompted.calls]
    rcases swaps with ⟨rfl, -, -⟩ | ⟨-, rfl, -⟩ <;> simp
  have notSettled := prompted.notSettled called
  obtain ⟨rfl, rfl, rfl⟩ | ⟨rfl, rfl, rfl⟩ := swaps
  all_goals
    refine
      { exclusive := prompted.exclusive.symm
        calls := fun other => (prompted.calls other).trans or_comm
        made := prompted.made
        settled := by simpa using prompted.settled
        balance := fun other notSettled => ?_
        unfinished := fun other notSettled => ?_
        atMostOnce := by simpa [PromptEvent.finishes] using prompted.atMostOnce
        once := fun other isSettled kept => ?_ }
    · have before := prompted.balance other (by simpa using notSettled)
      by_cases same : attempt = other
      · simpa [count_append, same] using before
      · simpa [count_append, same] using before
    · simpa [PromptEvent.finishes] using prompted.unfinished other (by simpa using notSettled)
    · have before : .settled other ∈ trace := by simpa using isSettled
      have differs : attempt ≠ other := by
        rintro rfl
        exact notSettled before
      simpa [PromptEvent.finishes] using
        prompted.once other before (by simpa [count_append, differs] using kept)

theorem same_of_called {other : Nat}
    (prompted : Prompted attempts promptCalls active pendingCancel trace)
    (called : attempt ∈ promptCalls) (otherCalled : other ∈ promptCalls) : other = attempt := by
  have here := (prompted.calls attempt).mp called
  have there := (prompted.calls other).mp otherCalled
  rcases prompted.exclusive with rfl | rfl
  · simp only [reduceCtorEq, false_or] at here there
    exact Option.some.inj (there.symm.trans here)
  · simp only [reduceCtorEq, or_false] at here there
    exact Option.some.inj (there.symm.trans here)

/-- The call of a prompt settles: its attempt ends, and it finishes unless it is being
cancelled. -/
theorem settle {errors : List (Option String)}
    (prompted : Prompted attempts promptCalls active pendingCancel trace)
    (called : attempt ∈ promptCalls)
    (finishes : errors.length = if pendingCancel = some attempt then 0 else 1) :
    Prompted attempts (promptCalls.erase attempt) none none
      (trace ++ PromptEvent.ofSettled attempt errors) := by
  have notSettled := prompted.notSettled called
  have noCalls : promptCalls.erase attempt = ∅ := by
    rw [Finset.eq_empty_iff_forall_notMem]
    intro other member
    obtain ⟨differs, otherCalled⟩ := Finset.mem_erase.mp member
    exact differs (prompted.same_of_called called otherCalled)
  have settledIff (other : Nat) :
      .settled other ∈ trace ++ PromptEvent.ofSettled attempt errors ↔
        .settled other ∈ trace ∨ other = attempt := by
    rw [mem_append, PromptEvent.settled_mem_ofSettled]
  have countFinishes (other : Nat) :
      (trace ++ PromptEvent.ofSettled attempt errors).countP (PromptEvent.finishes other) =
        trace.countP (PromptEvent.finishes other) +
          if attempt = other then errors.length else 0 := by
    rw [countP_append, PromptEvent.countP_finishes_ofSettled]
  have countCancelled (other : Nat) :
      (trace ++ PromptEvent.ofSettled attempt errors).count (.cancelled other) =
        trace.count (.cancelled other) := by
    rw [count_append, PromptEvent.count_ofSettled (by simp) (by simp), Nat.add_zero]
  have countRestored (other : Nat) :
      (trace ++ PromptEvent.ofSettled attempt errors).count (.restored other) =
        trace.count (.restored other) := by
    rw [count_append, PromptEvent.count_ofSettled (by simp) (by simp), Nat.add_zero]
  refine
    { exclusive := .inl rfl
      calls := by simp [noCalls]
      made := by simp [noCalls]
      settled := ?_
      balance := ?_
      unfinished := ?_
      atMostOnce := ?_
      once := ?_ }
  · intro other isSettled
    rw [noCalls]
    rcases (settledIff other).mp isSettled with before | rfl
    · exact ⟨(prompted.settled other before).1, by simp⟩
    · exact ⟨prompted.made other called, by simp⟩
  · intro other stillUnsettled
    rw [settledIff, not_or] at stillUnsettled
    have before := prompted.balance other stillUnsettled.1
    have notPending : pendingCancel ≠ some other := fun isPending =>
      stillUnsettled.2 (prompted.same_of_called called
        ((prompted.calls other).mpr (.inr isPending)))
    rw [countCancelled, countRestored]
    simpa [notPending] using before
  · intro other stillUnsettled
    rw [settledIff, not_or] at stillUnsettled
    rw [countFinishes, if_neg (Ne.symm stillUnsettled.2),
      prompted.unfinished other stillUnsettled.1]
  · intro other
    rw [countFinishes]
    split
    · next same =>
      rw [prompted.unfinished other (same ▸ notSettled), finishes]
      split <;> decide
    · exact prompted.atMostOnce other
  · intro other isSettled kept
    rw [countCancelled, countRestored] at kept
    rw [countFinishes]
    rcases (settledIff other).mp isSettled with before | rfl
    · have differs : attempt ≠ other := fun same => notSettled (same ▸ before)
      rw [if_neg differs]
      exact prompted.once other before kept
    · have before := prompted.balance other notSettled
      have notPending : pendingCancel ≠ some other := by
        intro isPending
        rw [if_pos isPending] at before
        omega
      rw [if_pos rfl, finishes, if_neg notPending, prompted.unfinished other notSettled]

end Prompted

/-! ## What the listeners are given -/

/-- The listeners are given the entry, or it stays as it is. -/
def StoreEntry.Shows (entry : StoreEntry ι) (told : StoreEntry.Told ι) : Prop :=
  told = (entry, []) ∨
    told.1.lastSnapshot = some told.1.toChatSessionSnapshot ∧
      told.1.toChatSessionSnapshot ∈ told.2

theorem StoreEntry.shows_notify (before entry : StoreEntry ι) :
    before.Shows (StoreEntry.told entry.notify) :=
  .inr ⟨rfl, by simp [StoreEntry.told, StoreEntry.notify]⟩

theorem StoreEntry.shows_settlePrompt (promptAttemptId : Nat) (outcome : PromptOutcome ι)
    (entry : StoreEntry ι) : entry.Shows (entry.settlePrompt promptAttemptId outcome).1 := by
  have finishes (error : Option String) (entry : StoreEntry ι) :
      entry.Shows (entry.finishPrompt promptAttemptId error).1 := by
    unfold finishPrompt finishPromptAttemptIfCurrent
    by_cases isActive : entry.activePromptAttemptId = some promptAttemptId
    · simpa [isActive] using shows_notify entry _
    · exact .inl (by simp [isActive])
  unfold settlePrompt clearPromptCancellation
  by_cases isPending : entry.pendingCancelPromptAttemptId = some promptAttemptId
  · simpa [isPending] using shows_notify entry _
  · simp only [ne_eq, isPending, not_false_eq_true, if_true]
    cases outcome with
    | resolved => exact finishes none entry
    | rejected error => exact finishes _ entry
    | creditsExhausted current notice =>
      dsimp only
      split
      · exact .inl rfl
      · rcases finishes none (entry.setMessages (current ++ [notice])).1 with same | shown
        · refine .inr ?_
          simp only [told, same]
          exact ⟨rfl, by simp [setMessages, notify]⟩
        · exact .inr ⟨shown.1, mem_append_right _ shown.2⟩

/-- The last snapshot shows the attempt of the entry, and the promises that are not
settled are about its cancellation. -/
structure Attentive (session : PromptSession ι) : Prop where
  shown : ∀ last, session.entry.lastSnapshot = some last →
    last.activePromptAttemptId = session.entry.activePromptAttemptId ∧
      last.pendingCancelPromptAttemptId = session.entry.pendingCancelPromptAttemptId
  waiting : ∀ waiter ∈ session.waiters,
    session.entry.pendingCancelPromptAttemptId = some waiter.promptAttemptId

namespace Attentive

variable {session : PromptSession ι}

theorem snapshot (attentive : Attentive session) :
    session.entry.snapshot.activePromptAttemptId = session.entry.activePromptAttemptId ∧
      session.entry.snapshot.pendingCancelPromptAttemptId =
        session.entry.pendingCancelPromptAttemptId := by
  unfold StoreEntry.snapshot
  split
  · next last _ isLast => exact attentive.shown last isLast
  · exact ⟨rfl, rfl⟩

theorem tell (attentive : Attentive session) {told : StoreEntry.Told ι}
    (shows : session.entry.Shows told) : Attentive (session.tell told) := by
  rcases shows with rfl | ⟨isLast, isGiven⟩
  · refine ⟨attentive.shown, fun waiter member => attentive.waiting waiter ?_⟩
    exact mem_of_mem_filter member
  · constructor
    · rintro last found
      cases Option.some.inj (isLast.symm.trans found)
      exact ⟨rfl, rfl⟩
    · intro waiter member
      have given := (mem_filter.mp member).2
      simpa [PromptSession.tell] using all_eq_true.mp given _ isGiven

end Attentive

/-! ## Runs -/

/-- What every step keeps. -/
structure Prompts (config : Config (PromptSession ι) PromptEvent) : Prop where
  prompted : Prompted config.state.attempts config.state.promptCalls
    config.state.entry.activePromptAttemptId config.state.entry.pendingCancelPromptAttemptId
    config.trace
  attentive : Attentive config.state

namespace Prompts

variable {session : PromptSession ι} {trace : List PromptEvent}

theorem onePrompt {config : Config (PromptSession ι) PromptEvent} (prompts : Prompts config) :
    OnePrompt config where
  oneCall := Finset.card_le_one.mpr fun _ called _ otherCalled =>
    prompts.prompted.same_of_called otherCalled called
  exclusive := prompts.prompted.exclusive
  settled := fun promptAttemptId isSettled isActive =>
    (prompts.prompted.settled promptAttemptId isSettled).2
      ((prompts.prompted.calls promptAttemptId).mpr (.inl isActive))
  atMostOnce := prompts.prompted.atMostOnce
  once := prompts.prompted.once
  waiters := fun waiter member => prompts.prompted.notSettled
    ((prompts.prompted.calls waiter.promptAttemptId).mpr
      (.inr (prompts.attentive.waiting waiter member)))

section

variable (prompts : Prompts ⟨session, trace⟩)
include prompts

/-- A step that shows another entry with the same attempt. -/
theorem tell {told : StoreEntry.Told ι} (shows : session.entry.Shows told)
    (sameActive : told.1.activePromptAttemptId = session.entry.activePromptAttemptId) (samePending :
      told.1.pendingCancelPromptAttemptId = session.entry.pendingCancelPromptAttemptId) :
    Prompts ⟨session.tell told, trace⟩ where
  prompted := by
    simpa [PromptSession.tell, sameActive, samePending] using prompts.prompted
  attentive := prompts.attentive.tell shows

theorem setChatState (chatState : ChatState) :
    Prompts ⟨session.tell (StoreEntry.told (session.entry.setChatState chatState)), trace⟩ :=
  prompts.tell (StoreEntry.shows_notify _ _) rfl rfl

theorem setMessages (messages : List (Message ι)) :
    Prompts ⟨session.tell (StoreEntry.told (session.entry.setMessages messages)), trace⟩ :=
  prompts.tell (StoreEntry.shows_notify _ _) rfl rfl

theorem submitMessage {submitted : PromptSession ι}
    (submits : session.submitMessage = .ok submitted) : Prompts ⟨submitted, trace⟩ := by
  unfold PromptSession.submitMessage at submits
  cases called : session.entry.submitMessage session.attempts with
  | error error => simp [called, Except.map] at submits
  | ok outcome =>
    simp only [called, Except.map, Except.ok.injEq] at submits
    cases outcome with
    | none => exact submits ▸ prompts
    | some told =>
      subst submits
      obtain ⟨notPending, notActive, rfl⟩ := StoreEntry.submitMessage_eq_some called
      have attentive : Attentive session := prompts.attentive
      rw [attentive.snapshot.2] at notPending
      rw [attentive.snapshot.1] at notActive
      have prompted : Prompted session.attempts session.promptCalls none none trace := by
        simpa [notPending, notActive] using prompts.prompted
      exact
        { prompted := prompted.start
          attentive := { prompts.attentive.tell (StoreEntry.shows_notify _ _) with } }

end

variable {promptAttemptId : Nat}

section

variable (prompts : Prompts ⟨session, trace⟩)
include prompts

theorem startPromptCancellation {cancelled : StoreEntry.Stepped ι}
    (starts : session.entry.startPromptCancellation promptAttemptId = some cancelled) :
    Prompts ⟨session.tell (StoreEntry.told cancelled), trace ++ [.cancelled promptAttemptId]⟩ := by
  obtain ⟨isActive, parks⟩ := StoreEntry.attemptState_startPromptCancellation starts
  have notPending : session.entry.pendingCancelPromptAttemptId = none := by
    rcases prompts.prompted.exclusive with none | none
    · exact absurd (none.symm.trans isActive) (by simp)
    · exact none
  have prompted : Prompted session.attempts session.promptCalls (some promptAttemptId) none
      trace := by
    simpa [isActive, notPending] using prompts.prompted
  have active : cancelled.1.activePromptAttemptId = none :=
    congrArg activePromptAttemptId parks
  have pending : cancelled.1.pendingCancelPromptAttemptId = some promptAttemptId :=
    congrArg pendingCancelPromptAttemptId parks
  refine
    { prompted := ?_
      attentive := prompts.attentive.tell ?_ }
  · simpa [PromptSession.tell, StoreEntry.told, active, pending] using
      prompted.swap (.inl ⟨rfl, rfl, rfl⟩)
  · unfold StoreEntry.startPromptCancellation at starts
    split at starts
    · cases starts
    · cases starts
      exact StoreEntry.shows_notify _ _

theorem restorePromptCancellation {restored : StoreEntry.Stepped ι}
    (restores : session.entry.restorePromptCancellation promptAttemptId = some restored) :
    Prompts ⟨session.tell (StoreEntry.told restored), trace ++ [.restored promptAttemptId]⟩ := by
  obtain ⟨isPending, restoreState, -, back⟩ :=
    StoreEntry.attemptState_restorePromptCancellation restores
  have notActive : session.entry.activePromptAttemptId = none := by
    rcases prompts.prompted.exclusive with none | none
    · exact none
    · exact absurd (none.symm.trans isPending) (by simp)
  have prompted : Prompted session.attempts session.promptCalls none (some promptAttemptId)
      trace := by
    simpa [isPending, notActive] using prompts.prompted
  have active : restored.1.activePromptAttemptId = some promptAttemptId :=
    congrArg activePromptAttemptId back
  have pending : restored.1.pendingCancelPromptAttemptId = none :=
    congrArg pendingCancelPromptAttemptId back
  refine
    { prompted := ?_
      attentive := prompts.attentive.tell ?_ }
  · simpa [PromptSession.tell, StoreEntry.told, active, pending] using
      prompted.swap (.inr ⟨rfl, rfl, rfl⟩)
  · unfold StoreEntry.restorePromptCancellation at restores
    split at restores
    · cases restores
    · obtain ⟨parked, -, rfl⟩ := Option.map_eq_some_iff.mp restores
      exact StoreEntry.shows_notify _ _

theorem promptSettles (outcome : StoreEntry.PromptOutcome ι)
    (called : promptAttemptId ∈ session.promptCalls) :
    Prompts ⟨{ session.tell (session.entry.settlePrompt promptAttemptId outcome).1 with
        promptCalls := session.promptCalls.erase promptAttemptId },
      trace ++ PromptEvent.ofSettled promptAttemptId
        (session.entry.settlePrompt promptAttemptId outcome).2⟩ := by
  have prompted : Prompted session.attempts session.promptCalls
      session.entry.activePromptAttemptId session.entry.pendingCancelPromptAttemptId trace :=
    prompts.prompted
  have after := StoreEntry.attemptState_settlePrompt promptAttemptId outcome session.entry
  have length := StoreEntry.length_settlePrompt promptAttemptId outcome session.entry
  have tracked := (prompted.calls promptAttemptId).mp called
  refine
    { prompted := ?_
      attentive := { prompts.attentive.tell (StoreEntry.shows_settlePrompt _ _ _) with } }
  by_cases isPending : session.entry.pendingCancelPromptAttemptId = some promptAttemptId
  · rw [if_pos isPending] at after length
    have notActive : session.entry.activePromptAttemptId = none :=
      prompted.exclusive.resolve_right (by simp [isPending])
    have active := congrArg activePromptAttemptId after
    have pending := congrArg pendingCancelPromptAttemptId after
    simp only [StoreEntry.attemptState, notActive] at active pending
    simpa [PromptSession.tell, active, pending] using
      prompted.settle called (by rw [length, if_pos isPending])
  · have isActive := tracked.resolve_right isPending
    rw [if_neg isPending, if_pos isActive] at after length
    have active := congrArg activePromptAttemptId after
    have pending := congrArg pendingCancelPromptAttemptId after
    simp only [StoreEntry.attemptState, AttemptState.ended] at active pending
    simpa [PromptSession.tell, active, pending] using
      prompted.settle called (by rw [length, if_neg isPending])

theorem stop : Prompts ⟨session.stop.1, trace ++ session.stop.2⟩ := by
  unfold PromptSession.stop StoreEntry.stop
  rw [prompts.attentive.snapshot.1]
  cases active : session.entry.activePromptAttemptId with
  | none =>
    simpa using prompts.setChatState .idle
  | some promptAttemptId =>
    cases starts : session.entry.startPromptCancellation promptAttemptId with
    | none => simp [StoreEntry.startPromptCancellation, active] at starts
    | some cancelled => simpa [starts] using prompts.startPromptCancellation starts

/-! ### Edits and loads -/

theorem withEdits (editsMade : Nat) (edits : JsMap Nat (EditPhase ι)) :
    Prompts ⟨{ session with editsMade, edits }, trace⟩ where
  prompted := prompts.prompted
  attentive := { prompts.attentive with }

theorem truncate (edit : Nat) (kept : List (Message ι)) :
    Prompts ⟨session.truncate edit kept, trace⟩ :=
  (prompts.setChatState .thinking).withEdits _ _

theorem failEdit (edit : Nat) : Prompts ⟨session.failEdit edit, trace⟩ :=
  (prompts.setChatState .idle).withEdits _ _

theorem submitEdit (edit : Nat) (messages : List (Message ι)) :
    Prompts ⟨session.submitEdit edit messages, trace⟩ := by
  have shown := prompts.setMessages messages
  unfold PromptSession.submitEdit
  dsimp only
  split
  · next submitted submits => exact (shown.submitMessage submits).withEdits _ _
  · exact shown.failEdit edit

theorem updateMessage (messageId : String) (editType : StoreEntry.EditType)
    (current : Option (ChatSessionSnapshot ι)) :
    Prompts ⟨(session.updateMessage messageId editType current).1,
      trace ++ (session.updateMessage messageId editType current).2⟩ := by
  unfold PromptSession.updateMessage
  split
  · simpa using (prompts.withEdits (session.editsMade + 1) session.edits).truncate _ _
  · next created promptAttemptId told cancels =>
    obtain ⟨cancelled, starts, rfl⟩ := StoreEntry.updateMessage_eq_cancels cancels
    have parked := prompts.startPromptCancellation starts
    have attentive : Attentive (session.tell (StoreEntry.told cancelled)) := parked.attentive
    have pending : cancelled.1.pendingCancelPromptAttemptId = some promptAttemptId :=
      congrArg pendingCancelPromptAttemptId
        (StoreEntry.attemptState_startPromptCancellation starts).2
    refine
      { prompted := parked.prompted
        attentive := ⟨attentive.shown, fun waiter member => ?_⟩ }
    rcases mem_append.mp member with before | new
    · exact attentive.waiting waiter before
    · cases mem_singleton.mp new
      exact pending
  · simpa using prompts

/-- A load starts while no attempt is being cancelled. -/
theorem loadSessionFromServer
    (keeps : session.loading = 0 → session.entry.pendingCancelPromptAttemptId = none) :
    Prompts ⟨session.loadSessionFromServer, trace⟩ := by
  unfold PromptSession.loadSessionFromServer
  split
  · next notLoading =>
    have started : Prompts ⟨session.tell (StoreEntry.told session.entry.startSessionLoad),
        trace⟩ :=
      prompts.tell (StoreEntry.shows_notify _ _) rfl (keeps notLoading).symm
    exact
      { prompted := started.prompted
        attentive := { started.attentive with } }
  · exact
      { prompted := prompts.prompted
        attentive := { prompts.attentive with } }

theorem loadReturns (outcome : Except String (Session ι)) :
    Prompts ⟨session.loadReturns outcome, trace⟩ := by
  cases outcome with
  | ok loaded => exact prompts.tell (StoreEntry.shows_notify _ _) rfl rfl
  | error error => exact prompts.tell (StoreEntry.shows_notify _ _) rfl rfl

end

theorem initial : Prompts (Config.initial ({} : PromptSession ι)) where
  prompted := Prompted.initial
  attentive := ⟨by simp, by simp⟩

theorem step {next : PromptSession ι} {action : PromptAction ι} {events : List PromptEvent}
    (prompts : Prompts ⟨session, trace⟩)
    (stepped : PromptSession.step session action = some (next, events))
    (keeps : StartsLoad session action → session.entry.pendingCancelPromptAttemptId = none) :
    Prompts ⟨next, trace ++ events⟩ := by
  have silent {session' : PromptSession ι} (kept : Prompts ⟨session', trace⟩)
      (isStep : some (session', ([] : List PromptEvent)) = some (next, events)) :
      Prompts ⟨next, trace ++ events⟩ := by
    cases isStep
    simpa using kept
  unfold PromptSession.step at stepped
  cases action with
  | submitMessage =>
    dsimp only at stepped
    split at stepped
    · next submitted submits => exact silent (prompts.submitMessage submits) stepped
    · exact silent prompts stepped
  | promptSettles promptAttemptId outcome =>
    dsimp only at stepped
    split at stepped
    · next called =>
      cases stepped
      exact prompts.promptSettles outcome called
    · cases stepped
  | stop =>
    have stopped := prompts.stop
    rwa [Option.some.inj stepped] at stopped
  | updateMessage messageId editType current =>
    have updated := prompts.updateMessage messageId editType current
    rwa [Option.some.inj stepped] at updated
  | cancelResolves edit =>
    dsimp only at stepped
    split at stepped
    · exact silent (prompts.withEdits _ _) stepped
    · cases stepped
  | cancelRejects edit =>
    dsimp only at stepped
    split at stepped
    · split at stepped
      · next restored restores =>
        cases stepped
        exact (prompts.restorePromptCancellation restores).withEdits _ _
      · exact silent (prompts.withEdits _ _) stepped
    · cases stepped
  | waited edit =>
    dsimp only at stepped
    split at stepped
    · split at stepped
      · cases stepped
      · exact silent (prompts.truncate edit _) stepped
    · cases stepped
  | truncateResolves edit updatedUserMessage =>
    dsimp only at stepped
    split at stepped
    · exact silent (prompts.submitEdit edit _) stepped
    · cases stepped
  | truncateRejects edit =>
    dsimp only at stepped
    split at stepped
    · exact silent (prompts.failEdit edit) stepped
    · cases stepped
  | loadSession =>
    refine silent ?_ stepped
    unfold PromptSession.loadSession
    split
    · exact prompts
    · next unknown =>
      exact prompts.loadSessionFromServer fun notLoading =>
        keeps ⟨by simpa using unknown, notLoading⟩
  | restoreSession => exact silent (prompts.loadSessionFromServer keeps) stepped
  | loadSettles outcome =>
    dsimp only at stepped
    split at stepped
    · cases stepped
    · refine silent ?_ stepped
      exact
        { prompted := prompts.prompted
          attentive := { prompts.attentive with } }
  | loadReturns =>
    dsimp only at stepped
    split at stepped
    · cases stepped
    · next outcome rest returning =>
      have returned := prompts.loadReturns outcome
      refine silent ?_ stepped
      exact
        { prompted := returned.prompted
          attentive := { returned.attentive with } }

end Prompts

/-- In a run in which no load starts while an attempt is being cancelled, one prompt is
called at a time and every attempt ends once. -/
theorem onePrompt_of_reaches {config : Config (PromptSession ι) PromptEvent}
    (reaches : Reaches PromptSession.step keepsCancellation {} config) : OnePrompt config := by
  refine Prompts.onePrompt (reaches.invariant Prompts Prompts.initial ?_)
  rintro ⟨session, trace⟩ ⟨next, _⟩ action _ prompts advanced keeps
  obtain ⟨events, stepped, rfl⟩ := advance_eq_some_iff.mp advanced
  exact prompts.step stepped keeps

instance (session : PromptSession ι) (action : PromptAction ι) :
    Decidable (StartsLoad session action) := by
  cases action <;> unfold StartsLoad <;> infer_instance

instance (config next : Config (PromptSession ι) PromptEvent) (action : PromptAction ι) :
    Decidable (keepsCancellation config action next) :=
  inferInstanceAs (Decidable (_ → _))

def namedSession : Session Unit :=
  ⟨"session", ()⟩

/-- The session is loaded once the prompt that was stopped has settled. -/
def stoppedThenLoadedRun : List (PromptAction Unit) :=
  [.submitMessage, .stop, .promptSettles 0 .resolved, .restoreSession,
    .loadSettles (.ok namedSession), .loadReturns, .submitMessage]

theorem onePrompt_stoppedThenLoadedRun :
    ∃ config, exec PromptSession.step (Config.initial {}) stoppedThenLoadedRun = some config ∧
      OnePrompt config := by
  obtain ⟨config, executed⟩ : ∃ config, exec PromptSession.step (Config.initial {})
      stoppedThenLoadedRun = some config :=
    Option.isSome_iff_exists.mp (by decide +kernel)
  exact ⟨config, executed, onePrompt_of_reaches
    (reaches_of_exec stoppedThenLoadedRun (by decide +kernel) executed)⟩

def anyLoad : Guard (PromptSession ι) (PromptAction ι) PromptEvent :=
  fun _ _ _ => True

instance (config next : Config (PromptSession ι) PromptEvent) (action : PromptAction ι) :
    Decidable (anyLoad config action next) :=
  inferInstanceAs (Decidable True)

/-- The session is loaded while the prompt that was stopped is still called. -/
def loadedWhileStoppingRun : List (PromptAction Unit) :=
  [.submitMessage, .stop, .restoreSession, .loadSettles (.ok namedSession), .loadReturns,
    .submitMessage]

/-- Two prompts are called at a time. -/
theorem not_onePrompt_loadedWhileStoppingRun :
    ∃ config, Reaches PromptSession.step anyLoad ({} : PromptSession Unit) config ∧
      config.state.promptCalls = {0, 1} ∧ ¬OnePrompt config := by
  obtain ⟨config, reaches, called⟩ := exists_reaches_of_exec PromptSession.step anyLoad
    ({} : PromptSession Unit) (fun config => config.state.promptCalls = {0, 1})
    loadedWhileStoppingRun (by decide +kernel) (by decide +kernel)
  refine ⟨config, reaches, called, fun one => ?_⟩
  have oneCall := one.oneCall
  rw [called] at oneCall
  exact absurd oneCall (by decide)

end Obelus.Acp
