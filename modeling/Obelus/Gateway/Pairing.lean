import Mathlib.Data.List.Induction
import Obelus.Data.Table
import Obelus.Transition.Reaches

/-!
# Pairing codes

A gateway stores codes that pair a chat user.  Storing and consuming each load the list of
codes from the configuration, change it and save it, and nothing keeps other calls from
saving in between.  What should hold is said of the events alone: which code is pending
after them.
-/

namespace Obelus.Gateway

open Obelus.Data (lookup lookup_eq_none_iff lookup_eraseIdx lookup_filter_ne lookup_of_getElem?
  lookup_snoc)
open Obelus.Transition

structure StoredPendingCode where
  code : String
  gatewayType : String
  expiresAt : Int
  deriving DecidableEq

inductive PairingOperation
  | storePendingCode (entry : StoredPendingCode)
  | consumePendingCode (code : String)

inductive PairingPhase
  | loading
  | saving (codes : List StoredPendingCode)
  | ended

structure PairingCall where
  operation : PairingOperation
  phase : PairingPhase

def PairingCall.loaded (call : PairingCall) : Option (List StoredPendingCode) :=
  match call.phase with
  | .saving codes => some codes
  | _ => none

/-- The list in the configuration, and all calls made so far. -/
structure PairingStore where
  codes : List StoredPendingCode := []
  calls : List PairingCall := []

/-- A code is stored, is not found, lets a user in or is found expired. -/
inductive PairingEvent
  | stored (entry : StoredPendingCode)
  | missed (code : String)
  | admitted (entry : StoredPendingCode) (now : Int)
  | expired (entry : StoredPendingCode) (now : Int)
  deriving DecidableEq

/-- A save of a consuming call comes with the time that the call reads behind it. -/
inductive PairingAction
  | call (operation : PairingOperation)
  | load (call : Nat) (succeeded : Bool)
  | save (call : Nat) (succeeded : Bool) (now : Int)

namespace PairingStore

/-- The list with an entry, which replaces one of the same code. -/
def retainAndPush (entry : StoredPendingCode) (codes : List StoredPendingCode) :
    List StoredPendingCode :=
  codes.filter (·.code ≠ entry.code) ++ [entry]

/-- The first entry of a code, and the list without it. -/
def removeAt (code : String) (codes : List StoredPendingCode) :
    Option (StoredPendingCode × List StoredPendingCode) :=
  match codes.findIdx? (·.code = code) with
  | none => none
  | some position => (codes[position]?).map fun entry => (entry, codes.eraseIdx position)

def withPhase (call : Nat) (phase : PairingPhase) (store : PairingStore) : PairingStore :=
  { store with calls := store.calls.modify call fun pending => { pending with phase } }

/-- A configuration that cannot be read counts as one without codes. -/
def loadPendingCodes (succeeded : Bool) (store : PairingStore) : List StoredPendingCode :=
  if succeeded then store.codes else []

def load (call : Nat) (succeeded : Bool) (operation : PairingOperation) (store : PairingStore) :
    PairingStore × List PairingEvent :=
  let codes := store.loadPendingCodes succeeded
  match operation with
  | .storePendingCode _ => (store.withPhase call (.saving codes), [])
  | .consumePendingCode code =>
    if (removeAt code codes).isNone then (store.withPhase call .ended, [.missed code])
    else (store.withPhase call (.saving codes), [])

/-- What a call does with the list that it loaded. -/
def saved (operation : PairingOperation) (now : Int) (codes : List StoredPendingCode) :
    Option (List StoredPendingCode × PairingEvent) :=
  match operation with
  | .storePendingCode entry => some (retainAndPush entry codes, .stored entry)
  | .consumePendingCode code =>
    (removeAt code codes).map fun found =>
      (found.2, if found.1.expiresAt < now then .expired found.1 now else .admitted found.1 now)

def step : Machine PairingStore PairingAction PairingEvent
  | store, .call operation =>
    some ({ store with calls := store.calls ++ [⟨operation, .loading⟩] }, [])
  | store, .load call succeeded =>
    match store.calls[call]? with
    | some ⟨operation, .loading⟩ => some (store.load call succeeded operation)
    | _ => none
  | store, .save call succeeded now =>
    match store.calls[call]? with
    | some ⟨operation, .saving codes⟩ =>
      if succeeded then
        (saved operation now codes).map fun change =>
          (withPhase call .ended { store with codes := change.1 }, [change.2])
      else some (store.withPhase call .ended, [])
    | _ => none

end PairingStore

/-- What is pending under each code. -/
abbrev Pending := String → Option StoredPendingCode

def PairingEvent.apply (pending : Pending) : PairingEvent → Pending
  | .stored entry => Function.update pending entry.code (some entry)
  | .missed _ => pending
  | .admitted entry _ => Function.update pending entry.code none
  | .expired entry _ => Function.update pending entry.code none

def pendingAfter (events : List PairingEvent) : Pending :=
  events.foldl PairingEvent.apply fun _ => none

/-- Only what is pending is consumed, before it expires, and what is pending is found. -/
def PairingEvent.Fits (pending : Pending) : PairingEvent → Prop
  | .stored _ => True
  | .missed code => pending code = none
  | .admitted entry now => pending entry.code = some entry ∧ now ≤ entry.expiresAt
  | .expired entry now => pending entry.code = some entry ∧ entry.expiresAt < now

def PairingEvent.admits (entry : StoredPendingCode) : PairingEvent → Bool
  | .admitted other _ => entry = other
  | _ => false

open PairingEvent (admits)

/-- Every event fits what is pending before it, and no code is consumed more often than it
was stored. -/
structure AdmitsOne (trace : List PairingEvent) : Prop where
  fits : ∀ before event after, trace = before ++ event :: after → event.Fits (pendingAfter before)
  once : ∀ entry, trace.countP (admits entry) ≤ trace.count (.stored entry)

@[simp]
theorem pendingAfter_concat (events : List PairingEvent) (event : PairingEvent) :
    pendingAfter (events ++ [event]) = event.apply (pendingAfter events) := by
  rw [pendingAfter, List.foldl_append]
  rfl

variable {trace : List PairingEvent} {codes : List StoredPendingCode} {pending : Pending}
  {code : String} {event : PairingEvent} {store : PairingStore}

/-- Events that fit consume a code at most as often as it was stored, and once less while it is
pending. -/
theorem count_admits_le (entry : StoredPendingCode)
    (fits : ∀ before event after, trace = before ++ event :: after →
      event.Fits (pendingAfter before)) :
    trace.countP (admits entry) + (pendingAfter trace entry.code).toList.count entry ≤
      trace.count (.stored entry) := by
  induction trace using List.reverseRecOn with
  | nil => simp [pendingAfter]
  | append_singleton before event ih =>
    have fitsHere := fits before event [] rfl
    have counted := ih (by
      intro front inner back isBefore
      apply fits front inner (back ++ [event])
      rw [isBefore, List.append_assoc]
      rfl)
    rw [List.countP_append, List.count_append, pendingAfter_concat]
    cases event with
    | stored other =>
      rw [PairingEvent.apply]
      by_cases same : other = entry
      · simp [same, admits]
        omega
      · by_cases sameCode : entry.code = other.code
        · simp [same, sameCode, admits]
          omega
        · simpa [same, sameCode, admits] using counted
    | missed code =>
      rw [PairingEvent.apply]
      simpa [admits] using counted
    | admitted other now =>
      rw [PairingEvent.apply]
      by_cases same : entry = other
      · rw [same, fitsHere.1] at counted
        simpa [same, admits] using counted
      · by_cases sameCode : entry.code = other.code
        · simp [same, sameCode, admits]
          omega
        · simpa [same, sameCode, admits] using counted
    | expired other now =>
      rw [PairingEvent.apply]
      by_cases sameCode : entry.code = other.code
      · simp [sameCode, admits]
        omega
      · simpa [sameCode, admits] using counted

theorem admitsOne_of_fits (fits : ∀ before event after, trace = before ++ event :: after →
      event.Fits (pendingAfter before)) : AdmitsOne trace := by
  constructor
  · exact fits
  · intro entry
    have counted := count_admits_le entry fits
    omega

/-- The list holds one entry for each pending code and no other. -/
structure Lists (codes : List StoredPendingCode) (pending : Pending) : Prop where
  distinct : (codes.map StoredPendingCode.code).Nodup
  finds : ∀ code, lookup StoredPendingCode.code codes code = pending code

theorem Lists.retainAndPush (lists : Lists codes pending) (entry : StoredPendingCode) :
    Lists (PairingStore.retainAndPush entry codes)
      (Function.update pending entry.code (some entry)) := by
  have isNew : entry.code ∉
      (codes.filter (·.code ≠ entry.code)).map StoredPendingCode.code := by
    rw [← lookup_eq_none_iff, lookup_filter_ne, if_pos rfl]
  constructor
  · rw [PairingStore.retainAndPush, List.map_append, List.nodup_append_comm]
    apply List.nodup_cons.mpr
    exact ⟨isNew, lists.distinct.sublist (List.filter_sublist.map _)⟩
  · intro code
    rw [PairingStore.retainAndPush, lookup_snoc isNew, lookup_filter_ne, lists.finds,
      Function.update_apply]
    split <;> rfl

theorem removeAt_eq_none_iff :
    PairingStore.removeAt code codes = none ↔ lookup StoredPendingCode.code codes code = none := by
  rw [PairingStore.removeAt, lookup, List.find?_eq_none]
  split
  · next absent => simpa using absent
  · next position found =>
    obtain ⟨within, isCode, -⟩ := List.findIdx?_eq_some_iff_getElem.mp found
    simp only [List.getElem?_eq_getElem within, Option.map_some, reduceCtorEq, false_iff,
      not_forall, Decidable.not_not]
    exact ⟨_, List.getElem_mem within, isCode⟩

theorem Lists.removeAt {rest : List StoredPendingCode} {entry : StoredPendingCode}
    (lists : Lists codes pending) (removed : PairingStore.removeAt code codes = some (entry, rest))
    : pending entry.code = some entry ∧ Lists rest (Function.update pending entry.code none) := by
  rw [PairingStore.removeAt] at removed
  split at removed
  · cases removed
  · next position found =>
    obtain ⟨other, here, isRemoved⟩ := Option.map_eq_some_iff.mp removed
    cases isRemoved
    constructor
    · rw [← lists.finds]
      exact lookup_of_getElem? lists.distinct here
    · constructor
      · exact lists.distinct.sublist ((List.eraseIdx_sublist codes position).map _)
      · intro wanted
        rw [lookup_eraseIdx lists.distinct here, lists.finds, Function.update_apply]

/-- The list that a call loads is the one in the configuration, and it is still there when the
call saves. -/
def SavesWhatItLoaded (store : PairingStore) : PairingAction → Prop
  | .call _ => True
  | .load _ succeeded => store.loadPendingCodes succeeded = store.codes
  | .save call succeeded _ =>
    succeeded = true → ∀ codes ∈ (store.calls[call]?).bind PairingCall.loaded,
      codes = store.codes

def savesWhatItLoaded : Guard PairingStore PairingAction PairingEvent :=
  fun config action _ => SavesWhatItLoaded config.state action

/-- The list is that of the events, and each event fits the ones before it. -/
structure Follows (store : PairingStore) (trace : List PairingEvent) : Prop where
  lists : Lists store.codes (pendingAfter trace)
  fits : ∀ before event after, trace = before ++ event :: after →
    event.Fits (pendingAfter before)

theorem fits_concat (fits : ∀ before event after, trace = before ++ event :: after →
      event.Fits (pendingAfter before)) (fitsLast : event.Fits (pendingAfter trace)) :
    ∀ before other after, trace ++ [event] = before ++ other :: after →
      other.Fits (pendingAfter before) := by
  intro before other after isTrace
  induction after using List.reverseRecOn with
  | nil =>
    obtain ⟨rfl, isLast⟩ := List.append_inj' isTrace rfl
    obtain rfl := List.singleton_inj.mp isLast
    exact fitsLast
  | append_singleton front last _ =>
    rw [← List.cons_append, ← List.append_assoc] at isTrace
    obtain ⟨isBefore, -⟩ := List.append_inj' isTrace rfl
    exact fits before other front isBefore

section

variable (follows : Follows store trace)
include follows

theorem Follows.concat {next : PairingStore} (fitsLast : event.Fits (pendingAfter trace))
    (lists : Lists next.codes (event.apply (pendingAfter trace))) :
    Follows next (trace ++ [event]) := by
  constructor
  · rw [pendingAfter_concat]
    exact lists
  · exact fits_concat follows.fits fitsLast

/-- A call that ends or goes on without a save changes nothing. -/
theorem Follows.withPhase (call : Nat) (phase : PairingPhase) :
    Follows (store.withPhase call phase) (trace ++ []) := by
  rw [List.append_nil]
  exact ⟨follows.lists, follows.fits⟩

theorem Follows.load {succeeded : Bool} (loads : store.loadPendingCodes succeeded = store.codes)
    (call : Nat) (operation : PairingOperation) : Follows (store.load call succeeded operation).1
      (trace ++ (store.load call succeeded operation).2) := by
  unfold PairingStore.load
  rw [loads]
  cases operation with
  | storePendingCode entry => exact follows.withPhase call _
  | consumePendingCode code =>
    simp only
    split
    · next absent =>
      rw [Option.isNone_iff_eq_none, removeAt_eq_none_iff, follows.lists.finds] at absent
      apply follows.concat
      · exact absent
      · exact follows.lists
    · exact follows.withPhase call _

theorem Follows.saved {operation : PairingOperation} {now : Int}
    (saved : PairingStore.saved operation now store.codes = some (codes, event)) (call : Nat) :
    Follows (PairingStore.withPhase call .ended { store with codes }) (trace ++ [event]) := by
  cases operation with
  | storePendingCode entry =>
    cases saved
    apply follows.concat
    · trivial
    · exact follows.lists.retainAndPush entry
  | consumePendingCode code =>
    obtain ⟨⟨entry, rest⟩, removed, isSaved⟩ := Option.map_eq_some_iff.mp saved
    cases isSaved
    obtain ⟨wasPending, lists⟩ := follows.lists.removeAt removed
    split
    · next late =>
      apply follows.concat
      · exact ⟨wasPending, late⟩
      · exact lists
    · next inTime =>
      apply follows.concat
      · exact ⟨wasPending, Int.not_lt.mp inTime⟩
      · exact lists

/-- A step of a call that saves what it loaded gives an event that fits. -/
theorem Follows.step {next : PairingStore} {emitted : List PairingEvent} {action : PairingAction}
    (stepped : PairingStore.step store action = some (next, emitted))
    (fresh : SavesWhatItLoaded store action) : Follows next (trace ++ emitted) := by
  cases action with
  | call operation =>
    cases stepped
    rw [List.append_nil]
    exact ⟨follows.lists, follows.fits⟩
  | load call succeeded =>
    rw [PairingStore.step] at stepped
    split at stepped
    · next operation _ =>
      have loaded := follows.load fresh call operation
      rw [Option.some.inj stepped] at loaded
      exact loaded
    · cases stepped
  | save call succeeded now =>
    rw [PairingStore.step] at stepped
    split at stepped
    · next operation codes isSaving =>
      cases succeeded with
      | false =>
        cases stepped
        exact follows.withPhase call .ended
      | true =>
        obtain rfl : codes = store.codes := fresh rfl codes (by rw [isSaving]; rfl)
        obtain ⟨⟨codes, event⟩, saved, isNext⟩ := Option.map_eq_some_iff.mp stepped
        cases isNext
        exact follows.saved saved call
    · cases stepped

end

/-- In every run whose calls save what they loaded, a code admits one user: it is consumed only
while it is pending, before it expires, and it stays pending until then. -/
theorem admitsOne_of_reaches {config : Config PairingStore PairingEvent}
    (reaches : Reaches PairingStore.step savesWhatItLoaded {} config) : AdmitsOne config.trace := by
  apply admitsOne_of_fits
  have follows : Follows config.state config.trace := by
    apply reaches.invariant (fun config => Follows config.state config.trace)
    · constructor
      · exact ⟨List.nodup_nil, fun _ => rfl⟩
      · intro before event after isEmpty
        exact absurd isEmpty.symm (List.append_ne_nil_of_right_ne_nil _ (List.cons_ne_nil _ _))
    · intro config next action _ follows advanced fresh
      obtain ⟨emitted, stepped, isTrace⟩ := advance_eq_some_iff.mp advanced
      rw [isTrace]
      exact follows.step stepped fresh
  exact follows.fits

section Recorded

instance (store : PairingStore) : DecidablePred (SavesWhatItLoaded store)
  | .call _ => inferInstanceAs (Decidable True)
  | .load _ succeeded =>
    inferInstanceAs (Decidable (store.loadPendingCodes succeeded = store.codes))
  | .save call succeeded _ => inferInstanceAs (Decidable (succeeded = true →
      ∀ codes ∈ (store.calls[call]?).bind PairingCall.loaded, codes = store.codes))

instance : ∀ config action next, Decidable (savesWhatItLoaded config action next) :=
  fun config action _ => inferInstanceAs (Decidable (SavesWhatItLoaded config.state action))

def telegramCode : StoredPendingCode :=
  ⟨"ABC234", "telegram", 300⟩

/-- One user consumes the code in time, another one after that. -/
def oneAfterTheOther : List PairingAction :=
  [.call (.storePendingCode telegramCode), .load 0 true, .save 0 true 0,
    .call (.consumePendingCode "ABC234"), .load 1 true, .save 1 true 10,
    .call (.consumePendingCode "ABC234"), .load 2 true]

theorem admitsOne_oneAfterTheOther :
    AdmitsOne [.stored telegramCode, .admitted telegramCode 10, .missed "ABC234"] := by
  obtain ⟨config, executed, isTrace⟩ : ∃ config ∈ exec PairingStore.step (Config.initial {})
      oneAfterTheOther, config.trace =
        [.stored telegramCode, .admitted telegramCode 10, .missed "ABC234"] := by
    decide
  rw [← isTrace]
  exact admitsOne_of_reaches (reaches_of_exec oneAfterTheOther (by decide) executed)

/-- Two users consume the code at the same time. -/
def bothAtOnce : List PairingAction :=
  [.call (.storePendingCode telegramCode), .load 0 true, .save 0 true 0,
    .call (.consumePendingCode "ABC234"), .call (.consumePendingCode "ABC234"),
    .load 1 true, .load 2 true, .save 1 true 10, .save 2 true 10]

/-- Both are let in. -/
theorem not_admitsOne_bothAtOnce : ∃ config ∈ exec PairingStore.step (Config.initial {}) bothAtOnce,
      config.trace = [.stored telegramCode, .admitted telegramCode 10, .admitted telegramCode 10] ∧
      ¬AdmitsOne config.trace := by
  have executed : ∃ config ∈ exec PairingStore.step (Config.initial {}) bothAtOnce,
      config.trace =
        [.stored telegramCode, .admitted telegramCode 10, .admitted telegramCode 10] := by
    decide
  obtain ⟨config, isEnd, isTrace⟩ := executed
  refine ⟨config, isEnd, isTrace, ?_⟩
  intro admitsOne
  have once := admitsOne.once telegramCode
  rw [isTrace] at once
  exact absurd once (by decide)

end Recorded

end Obelus.Gateway
