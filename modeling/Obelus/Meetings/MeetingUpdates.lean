import Obelus.Meetings.Tables
import Obelus.Transition.Reaches

/-!
# Updating meetings

`update_meeting` reads the row of a meeting and later writes all its columns
back, those it was not asked to change with the values it has read.  Two calls
at once are a machine that moves one call at a time from one database step to
its next.  A column that a call sets keeps its value exactly when each update
finds the columns that it writes back as the call read them.
-/

namespace Obelus.Meetings

open Obelus.Data List
open Obelus.Transition
open Validation

structure MeetingUpdateRequest where
  meetingId : String
  title : Option String
  status : Option MeetingLifecycleStatus
  endedAtMs : Option Int
  captureStatus : Option MeetingCaptureStatus
  refinementStatus : Option MeetingRefinementStatus
  researchStatus : Option MeetingResearchStatus
  error : Option MeetingTypedErrorDto
  clearError : Bool

def maxTitleBytes : Nat := 512

/-- `WHERE id = ? AND deleted_at_ms IS NULL`. -/
def isLive (meetingId : String) (row : MeetingRecord) : Bool :=
  row.id = meetingId ∧ row.deletedAtMs = none

/-- `get_meeting` without deleted meetings. -/
def readMeeting (meetings : List MeetingRecord) (meetingId : String) :
    Except MeetingStoreError MeetingDto :=
  match meetings.find? (isLive meetingId) with
  | some row => .ok row.toMeetingDto
  | none => .error .notFound

/-- The checks of a request and the read of the meeting. -/
def beginUpdate (host : StoreHost) (request : MeetingUpdateRequest)
    (meetings : List MeetingRecord) : Except MeetingStoreError MeetingDto := do
  uuid host request.meetingId
  optional request.title maxTitleBytes "invalid meeting title"
  typedError request.error
  let existing ← readMeeting meetings request.meetingId
  timestampRange existing.startedAtMs (request.endedAtMs.or existing.endedAtMs)
  return existing

/-- The columns an update writes, computed from what the call has read. -/
def updateRow (request : MeetingUpdateRequest) (existing : MeetingDto) (now : Int)
    (row : MeetingRecord) : MeetingRecord :=
  { row with
    title := trimWhitespace (request.title.getD existing.title)
    status := request.status.getD existing.status
    endedAtMs := request.endedAtMs.or existing.endedAtMs
    captureStatus := request.captureStatus.getD existing.captureStatus
    refinementStatus := request.refinementStatus.getD existing.refinementStatus
    researchStatus := request.researchStatus.getD existing.researchStatus
    lastError := if request.clearError then none else request.error.or existing.lastError
    updatedAtMs := now }

def writeUpdate (request : MeetingUpdateRequest) (existing : MeetingDto) (now : Int)
    (meetings : List MeetingRecord) : List MeetingRecord :=
  updateWhere (isLive request.meetingId) (updateRow request existing now) meetings

inductive Caller
  | first
  | second
  deriving DecidableEq

def Caller.other : Caller → Caller
  | .first => .second
  | .second => .first

@[simp]
theorem Caller.other_other (caller : Caller) : caller.other.other = caller := by
  cases caller <;> rfl

theorem Caller.other_ne (caller : Caller) : caller.other ≠ caller := by
  cases caller <;> decide

theorem Caller.eq_or_eq_other (caller other : Caller) : other = caller ∨ other = caller.other := by
  cases caller <;> cases other <;> decide

/-- Where a call stands, with what it has read. -/
inductive UpdateCall
  | waiting
  | read (existing : MeetingDto)
  | updated
  | returned (answer : Except MeetingStoreError MeetingDto)

structure UpdateState where
  meetings : List MeetingRecord
  calls : Caller → UpdateCall

structure UpdateAction where
  caller : Caller
  now : Int

/-- An update of the row of a meeting: what the call had read of it, and the
meeting as the update found it. -/
structure RowUpdate where
  caller : Caller
  existing : MeetingDto
  found : Option MeetingDto

namespace UpdateState

def move (state : UpdateState) (caller : Caller) (call : UpdateCall) : UpdateState :=
  { state with calls := Function.update state.calls caller call }

end UpdateState

def updateStep (host : StoreHost) (requests : Caller → MeetingUpdateRequest) :
    Machine UpdateState UpdateAction RowUpdate := fun state action =>
  let request := requests action.caller
  match state.calls action.caller with
  | .waiting =>
    match beginUpdate host request state.meetings with
    | .ok existing => some (state.move action.caller (.read existing), [])
    | .error error => some (state.move action.caller (.returned (.error error)), [])
  | .read existing =>
    some (
      { (state.move action.caller .updated) with
        meetings := writeUpdate request existing action.now state.meetings },
      [{ caller := action.caller, existing
         found := (readMeeting state.meetings request.meetingId).toOption }])
  | .updated =>
    some (state.move action.caller (.returned (readMeeting state.meetings request.meetingId)), [])
  | .returned _ => none

/-- The columns a request can set. -/
inductive MeetingColumn
  | title
  | status
  | endedAtMs
  | captureStatus
  | refinementStatus
  | researchStatus
  | lastError

def MeetingColumn.Value : MeetingColumn → Type
  | .title => String
  | .status => MeetingLifecycleStatus
  | .endedAtMs => Option Int
  | .captureStatus => MeetingCaptureStatus
  | .refinementStatus => MeetingRefinementStatus
  | .researchStatus => MeetingResearchStatus
  | .lastError => Option MeetingTypedErrorDto

/-- The form a value is stored in: a title loses its outer white space. -/
def MeetingColumn.stored : (column : MeetingColumn) → column.Value → column.Value
  | .title => trimWhitespace
  | _ => id

theorem MeetingColumn.stored_stored (column : MeetingColumn) (value : column.Value) :
    column.stored (column.stored value) = column.stored value := by
  cases column with
  | title => exact trimWhitespace_trimWhitespace value
  | _ => rfl

def MeetingDto.column (meeting : MeetingDto) : (column : MeetingColumn) → column.Value
  | .title => meeting.title
  | .status => meeting.status
  | .endedAtMs => meeting.endedAtMs
  | .captureStatus => meeting.captureStatus
  | .refinementStatus => meeting.refinementStatus
  | .researchStatus => meeting.researchStatus
  | .lastError => meeting.lastError

/-- The value a request gives to a column it sets; clearing the error comes
before setting it. -/
def MeetingUpdateRequest.gives (request : MeetingUpdateRequest) :
    (column : MeetingColumn) → Option column.Value
  | .title => request.title
  | .status => request.status
  | .endedAtMs => request.endedAtMs.map some
  | .captureStatus => request.captureStatus
  | .refinementStatus => request.refinementStatus
  | .researchStatus => request.researchStatus
  | .lastError => if request.clearError then some none else request.error.map some

/-- An update writes the values it was given and writes back what it has read. -/
theorem updateRow_column (request : MeetingUpdateRequest) (existing : MeetingDto) (now : Int)
    (row : MeetingRecord) (column : MeetingColumn) :
    (updateRow request existing now row).toMeetingDto.column column =
      column.stored ((request.gives column).getD (existing.column column)) := by
  cases column with
  | endedAtMs =>
    show request.endedAtMs.or existing.endedAtMs =
      (request.endedAtMs.map some).getD existing.endedAtMs
    cases request.endedAtMs <;> rfl
  | lastError =>
    show (if request.clearError then none else request.error.or existing.lastError) =
      (if request.clearError then some none else request.error.map some).getD existing.lastError
    cases request.clearError <;> cases request.error <;> rfl
  | _ => rfl

variable {meetings : List MeetingRecord} {meeting : MeetingDto}

theorem readMeeting_eq_ok_iff {meetingId : String} : readMeeting meetings meetingId = .ok meeting ↔
      ∃ row, meetings.find? (isLive meetingId) = some row ∧ row.toMeetingDto = meeting := by
  unfold readMeeting
  cases meetings.find? (isLive meetingId) <;> simp

/-- The update of a meeting that is there leaves the columns it wrote. -/
theorem readMeeting_writeUpdate {request : MeetingUpdateRequest} (existing : MeetingDto) (now : Int)
    (found : readMeeting meetings request.meetingId = .ok meeting) :
    ∃ after, readMeeting (writeUpdate request existing now meetings) request.meetingId = .ok after ∧
      ∀ column, after.column column =
        column.stored ((request.gives column).getD (existing.column column)) := by
  obtain ⟨row, isFirst, -⟩ := readMeeting_eq_ok_iff.mp found
  refine ⟨_, readMeeting_eq_ok_iff.mpr ⟨updateRow request existing now row, ?_, rfl⟩,
    updateRow_column request existing now row⟩
  have kept : ∀ row, isLive request.meetingId row →
      isLive request.meetingId (updateRow request existing now row) := fun _ live => live
  rw [writeUpdate, find?_updateWhere kept, isFirst]
  rfl

section Calls

variable {host : StoreHost} {requests : Caller → MeetingUpdateRequest}

/-- What one database step of a call does. -/
inductive UpdateEffect (requests : Caller → MeetingUpdateRequest) (caller : Caller) (now : Int)
    (before : UpdateState) : UpdateState → List RowUpdate → Prop
  | begins {existing : MeetingDto} (waiting : before.calls caller = .waiting)
      (found : readMeeting before.meetings (requests caller).meetingId = .ok existing) :
      UpdateEffect requests caller now before (before.move caller (.read existing)) []
  | refuses {error : MeetingStoreError} (waiting : before.calls caller = .waiting) :
      UpdateEffect requests caller now before (before.move caller (.returned (.error error))) []
  | writes {existing : MeetingDto} (reading : before.calls caller = .read existing) :
      UpdateEffect requests caller now before
        { before.move caller .updated with
          meetings := writeUpdate (requests caller) existing now before.meetings }
        [{ caller, existing
           found := (readMeeting before.meetings (requests caller).meetingId).toOption }]
  | returns (updated : before.calls caller = .updated) :
      UpdateEffect requests caller now before (before.move caller
        (.returned (readMeeting before.meetings (requests caller).meetingId))) []

theorem updateStep_effect {before after : UpdateState} {action : UpdateAction}
    {emitted : List RowUpdate}
    (stepped : updateStep host requests before action = some (after, emitted)) :
    UpdateEffect requests action.caller action.now before after emitted := by
  rw [updateStep] at stepped
  cases call : before.calls action.caller with
  | waiting =>
    simp only [call] at stepped
    cases begun : beginUpdate host (requests action.caller) before.meetings with
    | ok existing =>
      simp only [begun] at stepped
      obtain ⟨rfl, rfl⟩ := stepped
      simp only [beginUpdate, bind_eq_ok_iff, pure_eq_ok_iff] at begun
      obtain ⟨_, -, _, -, _, -, _, found, _, -, rfl⟩ := begun
      exact .begins call found
    | error error =>
      simp only [begun] at stepped
      obtain ⟨rfl, rfl⟩ := stepped
      exact .refuses call
  | read existing =>
    simp only [call] at stepped
    obtain ⟨rfl, rfl⟩ := stepped
    exact .writes call
  | updated =>
    simp only [call] at stepped
    obtain ⟨rfl, rfl⟩ := stepped
    exact .returns call
  | returned answer => simp [call] at stepped

/-- The call has updated the row. -/
def UpdateCall.hasWritten : UpdateCall → Prop
  | .updated => True
  | .returned (.ok _) => True
  | _ => False

def UpdateCall.succeeded : UpdateCall → Bool
  | .returned (.ok _) => true
  | _ => false

variable {call : UpdateCall} {config : Config UpdateState RowUpdate} {caller : Caller}
  {meetings : List MeetingRecord} {meeting existing : MeetingDto} {now : Int} {start : UpdateState}

theorem UpdateCall.hasWritten_of_succeeded (succeeded : call.succeeded) : call.hasWritten := by
  cases call with
  | returned answer =>
    cases answer with
    | ok meeting => trivial
    | error error => cases succeeded
  | _ => cases succeeded

/-- The row has the value a call gave in every column the call sets. -/
def Keeps (requests : Caller → MeetingUpdateRequest) (meetings : List MeetingRecord)
    (caller : Caller) : Prop :=
  ∃ meeting, readMeeting meetings (requests caller).meetingId = .ok meeting ∧
    ∀ column value, (requests caller).gives column = some value →
      meeting.column column = column.stored value

/-- The update finds the columns that its call does not set as the call has
read them. -/
def RowUpdate.Fresh (requests : Caller → MeetingUpdateRequest) (update : RowUpdate) : Prop :=
  ∃ meeting ∈ update.found, ∀ column, (requests update.caller).gives column = none →
    column.stored (update.existing.column column) = column.stored (meeting.column column)

/-- The values of the calls that have written are kept exactly when every update
was fresh; a call that has yet to write has read what it will write back, as far
as the other call has not written it. -/
structure UpdatesTracked (requests : Caller → MeetingUpdateRequest)
    (config : Config UpdateState RowUpdate) : Prop where
  present : ∀ caller, (config.state.calls caller).hasWritten ∨
    (∃ existing, config.state.calls caller = .read existing) →
      ∃ meeting, readMeeting config.state.meetings (requests caller).meetingId = .ok meeting
  current : ∀ caller existing meeting, config.state.calls caller = .read existing →
    readMeeting config.state.meetings (requests caller).meetingId = .ok meeting →
      ∀ column, ((config.state.calls caller.other).hasWritten →
        (requests caller.other).gives column = none) →
          column.stored (existing.column column) = column.stored (meeting.column column)
  alone : ∀ caller, ¬(config.state.calls caller.other).hasWritten →
    (config.state.calls caller).hasWritten → Keeps requests config.state.meetings caller
  fresh_iff : (∀ caller, (config.state.calls caller).hasWritten →
    Keeps requests config.state.meetings caller) ↔ ∀ update ∈ config.trace, update.Fresh requests

/-- A step that neither writes nor ends a call that has written keeps track. -/
theorem UpdatesTracked.move (tracked : UpdatesTracked requests config)
    (sameWritten : call.hasWritten ↔ (config.state.calls caller).hasWritten)
    (justRead : ∀ existing, call = .read existing →
      readMeeting config.state.meetings (requests caller).meetingId = .ok existing) :
    UpdatesTracked requests ⟨config.state.move caller call, config.trace⟩ := by
  have written : ∀ other, ((config.state.move caller call).calls other).hasWritten ↔
      (config.state.calls other).hasWritten := by
    intro other
    by_cases same : other = caller
    · subst same
      simpa [UpdateState.move] using sameWritten
    · simp [UpdateState.move, same]
  have reading : ∀ other existing, (config.state.move caller call).calls other = .read existing →
      config.state.calls other = .read existing ∨
        readMeeting config.state.meetings (requests other).meetingId = .ok existing := by
    intro other existing isReading
    by_cases same : other = caller
    · subst same
      exact .inr (justRead existing (by simpa [UpdateState.move] using isReading))
    · exact .inl (by simpa [UpdateState.move, same] using isReading)
  constructor
  · rintro other (hasWritten | ⟨existing, isReading⟩)
    · exact tracked.present other (.inl ((written other).mp hasWritten))
    · rcases reading other existing isReading with before | found
      · exact tracked.present other (.inr ⟨existing, before⟩)
      · exact ⟨existing, found⟩
  · intro other existing meeting isReading found column untouched
    rcases reading other existing isReading with before | foundBefore
    · exact tracked.current other existing meeting before found column
        (fun hasWritten => untouched ((written other.other).mpr hasWritten))
    · cases foundBefore.symm.trans found
      rfl
  · intro other notWritten hasWritten
    exact tracked.alone other (fun before => notWritten ((written _).mpr before))
      ((written other).mp hasWritten)
  · rw [← tracked.fresh_iff]
    exact forall_congr' fun other => imp_congr (written other) Iff.rfl

/-- Right after its update the columns a call sets have the values it gave. -/
theorem keeps_of_write (caller : Caller) (existing : MeetingDto) (now : Int)
    (found : readMeeting meetings (requests caller).meetingId = .ok meeting) :
    Keeps requests (writeUpdate (requests caller) existing now meetings) caller := by
  obtain ⟨after, foundAfter, columns⟩ := readMeeting_writeUpdate existing now found
  refine ⟨after, foundAfter, ?_⟩
  intro column value given
  rw [columns, given]
  rfl

variable (sameMeeting : (requests .first).meetingId = (requests .second).meetingId)
  (disjoint : ∀ column, (requests .first).gives column = none ∨
    (requests .second).gives column = none)

include sameMeeting in
theorem meetingId_other (caller : Caller) :
    (requests caller.other).meetingId = (requests caller).meetingId := by
  cases caller with
  | first => exact sameMeeting.symm
  | second => exact sameMeeting

include disjoint in
theorem gives_other {column : MeetingColumn} {value : column.Value}
    (given : (requests caller.other).gives column = some value) :
    (requests caller).gives column = none := by
  cases caller with
  | first => exact (disjoint column).resolve_right (by rw [Caller.other] at given; simp [given])
  | second => exact (disjoint column).resolve_left (by rw [Caller.other] at given; simp [given])

include sameMeeting disjoint in
/-- An update after the other one keeps the values of the other call exactly
when it is fresh. -/
theorem keeps_other_iff (found : readMeeting meetings (requests caller).meetingId = .ok meeting)
    (kept : Keeps requests meetings caller.other)
    (current : ∀ column, (requests caller.other).gives column = none →
      column.stored (existing.column column) = column.stored (meeting.column column)) :
    Keeps requests (writeUpdate (requests caller) existing now meetings) caller.other ↔
      ∀ column, (requests caller).gives column = none →
        column.stored (existing.column column) = column.stored (meeting.column column) := by
  obtain ⟨after, foundAfter, columns⟩ := readMeeting_writeUpdate existing now found
  obtain ⟨before, foundBefore, values⟩ := kept
  rw [meetingId_other sameMeeting] at foundBefore
  cases foundBefore.symm.trans found
  constructor
  · rintro ⟨_, foundLater, valuesLater⟩ column untouched
    rw [meetingId_other sameMeeting] at foundLater
    cases foundLater.symm.trans foundAfter
    cases given : (requests caller.other).gives column with
    | none => exact current column given
    | some value =>
      have writtenBack := columns column
      rw [untouched, valuesLater column value given] at writtenBack
      rw [values column value given, column.stored_stored]
      exact writtenBack.symm
  · intro fresh
    refine ⟨after, by rw [meetingId_other sameMeeting, foundAfter], ?_⟩
    intro column value given
    have untouched := gives_other disjoint given
    rw [columns, untouched]
    show column.stored (existing.column column) = _
    rw [fresh column untouched, values column value given, column.stored_stored]

include sameMeeting disjoint in
theorem UpdatesTracked.write (tracked : UpdatesTracked requests config)
    (reading : config.state.calls caller = .read existing) : UpdatesTracked requests
      ⟨{ config.state.move caller .updated with
          meetings := writeUpdate (requests caller) existing now config.state.meetings },
        config.trace ++ [⟨caller, existing,
          (readMeeting config.state.meetings (requests caller).meetingId).toOption⟩]⟩ := by
  obtain ⟨meeting, found⟩ := tracked.present caller (.inr ⟨existing, reading⟩)
  have notWritten : ¬(config.state.calls caller).hasWritten := by
    simp [reading, UpdateCall.hasWritten]
  have current := tracked.current caller existing meeting reading found
  have keepsOwn := keeps_of_write caller existing now found
  obtain ⟨after, foundAfter, columns⟩ := readMeeting_writeUpdate existing now found
  have keptBefore : (config.state.calls caller.other).hasWritten →
      Keeps requests config.state.meetings caller.other :=
    tracked.alone caller.other (by rwa [caller.other_other])
  have freshBefore : ∀ update ∈ config.trace, update.Fresh requests := by
    apply tracked.fresh_iff.mp
    intro other hasWritten
    rcases caller.eq_or_eq_other other with rfl | rfl
    · exact absurd hasWritten notWritten
    · exact keptBefore hasWritten
  constructor
  · rintro other -
    refine ⟨after, ?_⟩
    rcases caller.eq_or_eq_other other with rfl | rfl
    · exact foundAfter
    · rw [meetingId_other sameMeeting]
      exact foundAfter
  · intro other existing' meeting' isReading found' column untouched
    rcases caller.eq_or_eq_other other with rfl | rfl
    · simp [UpdateState.move] at isReading
    · -- the other call has read what this one writes back
      have isReading : config.state.calls caller.other = .read existing' := by
        simpa [UpdateState.move, caller.other_ne] using isReading
      have untouched : (requests caller).gives column = none := by
        have := untouched (by simp [UpdateState.move, UpdateCall.hasWritten])
        rwa [caller.other_other] at this
      rw [meetingId_other sameMeeting] at found'
      cases found'.symm.trans foundAfter
      have ownCurrent := current column (by simp [isReading, UpdateCall.hasWritten])
      have otherCurrent := tracked.current caller.other existing' meeting isReading
        (by rw [meetingId_other sameMeeting, found]) column
        (by rw [caller.other_other]; exact fun hasWritten => absurd hasWritten notWritten)
      rw [columns, untouched, otherCurrent, ← ownCurrent, column.stored_stored]
      rfl
  · intro other otherNotWritten hasWritten
    rcases caller.eq_or_eq_other other with rfl | rfl
    · exact keepsOwn
    · simp [UpdateState.move, UpdateCall.hasWritten] at otherNotWritten
  · have freshHere : RowUpdate.Fresh requests ⟨caller, existing,
        (readMeeting config.state.meetings (requests caller).meetingId).toOption⟩ ↔
          ∀ column, (requests caller).gives column = none →
            column.stored (existing.column column) = column.stored (meeting.column column) := by
      rw [found]
      simp [RowUpdate.Fresh, Except.toOption]
    rw [forall_mem_append, forall_mem_singleton, and_iff_right freshBefore, freshHere]
    by_cases written : (config.state.calls caller.other).hasWritten
    · have keptIff : Keeps requests (writeUpdate (requests caller) existing now
          config.state.meetings) caller.other ↔ _ :=
        keeps_other_iff sameMeeting disjoint found (keptBefore written)
          fun column untouched => current column fun _ => untouched
      rw [← keptIff]
      constructor
      · intro kept
        exact kept caller.other (by simpa [UpdateState.move, caller.other_ne] using written)
      · intro keptOther other _
        rcases caller.eq_or_eq_other other with rfl | rfl
        · exact keepsOwn
        · exact keptOther
    · apply iff_of_true
      · intro other hasWritten
        rcases caller.eq_or_eq_other other with rfl | rfl
        · exact keepsOwn
        · exact absurd (by simpa [UpdateState.move, caller.other_ne] using hasWritten) written
      · exact fun column _ => current column fun hasWritten => absurd hasWritten written

theorem UpdatesTracked.initially (waiting : ∀ caller, start.calls caller = .waiting) :
    UpdatesTracked requests (Config.initial start) := by
  constructor <;> simp [waiting, UpdateCall.hasWritten]

include sameMeeting disjoint in
theorem updatesTracked (waiting : ∀ caller, start.calls caller = .waiting)
    (reaches : Reaches (updateStep host requests) (fun _ _ _ => True) start config) :
    UpdatesTracked requests config := by
  apply reaches.invariant (UpdatesTracked requests) (.initially waiting)
  rintro config ⟨state, trace⟩ action - tracked advanced -
  obtain ⟨emitted, stepped, rfl⟩ := advance_eq_some_iff.mp advanced
  cases updateStep_effect stepped with
  | begins isWaiting found =>
    rw [append_nil]
    apply tracked.move
    · simp [isWaiting, UpdateCall.hasWritten]
    · rintro _ ⟨⟩
      exact found
  | refuses isWaiting =>
    rw [append_nil]
    apply tracked.move
    · simp [isWaiting, UpdateCall.hasWritten]
    · rintro _ ⟨⟩
  | writes reading => exact tracked.write sameMeeting disjoint reading
  | returns updated =>
    rw [append_nil]
    obtain ⟨meeting, found⟩ := tracked.present action.caller (.inl (by rw [updated]; trivial))
    rw [found]
    apply tracked.move
    · simp [updated, UpdateCall.hasWritten]
    · rintro _ ⟨⟩

include sameMeeting disjoint in
/-- Both calls have the values they gave in the row when they return exactly
when every update found the columns that it wrote back as its call had read
them. -/
theorem updates_kept_iff {start : UpdateState}
    (waiting : ∀ caller, start.calls caller = .waiting) {config : Config UpdateState RowUpdate}
    (reaches : Reaches (updateStep host requests) (fun _ _ _ => True) start config)
    (succeeded : ∀ caller, (config.state.calls caller).succeeded) :
    (∀ caller, Keeps requests config.state.meetings caller) ↔
      ∀ update ∈ config.trace, update.Fresh requests := by
  have tracked := updatesTracked sameMeeting disjoint waiting reaches
  rw [← tracked.fresh_iff]
  apply forall_congr'
  intro caller
  simp [UpdateCall.hasWritten_of_succeeded (succeeded caller)]

end Calls

/-- One call names the meeting, the other one ends its recording. -/
def renameAndEnd : Caller → MeetingUpdateRequest
  | .first =>
    { meetingId := "m", title := some "Review", status := none, endedAtMs := none
      captureStatus := none, refinementStatus := none, researchStatus := none
      error := none, clearError := false }
  | .second =>
    { meetingId := "m", title := none, status := some .complete, endedAtMs := some 60
      captureStatus := some .complete, refinementStatus := none, researchStatus := none
      error := none, clearError := true }

def recordingMeeting : MeetingRecord where
  id := "m"
  title := "Untitled meeting"
  artifactType := .meeting
  mode := .call
  status := .recording
  startedAtMs := 0
  endedAtMs := none
  canonicalTranscriptVersionId := none
  captureStatus := .active
  refinementStatus := .notStarted
  researchStatus := .notStarted
  lastError := none
  createdAtMs := 0
  updatedAtMs := 0
  deletedAtMs := none

def beforeUpdates : UpdateState where
  meetings := [recordingMeeting]
  calls := fun _ => .waiting

theorem renameAndEnd_disjoint (column : MeetingColumn) :
    (renameAndEnd .first).gives column = none ∨ (renameAndEnd .second).gives column = none := by
  cases column <;> first | exact .inl rfl | exact .inr rfl

/-- The calls one after the other. -/
theorem updates_kept_iff_inTurn :
    ∃ config, Reaches (updateStep plainHost renameAndEnd) (fun _ _ _ => True) beforeUpdates config ∧
      (∀ caller, (config.state.calls caller).succeeded) ∧
        ((∀ caller, Keeps renameAndEnd config.state.meetings caller) ↔
          ∀ update ∈ config.trace, update.Fresh renameAndEnd) := by
  obtain ⟨config, reaches, first, second⟩ := exists_reaches_of_exec
    (updateStep plainHost renameAndEnd) (fun _ _ _ => True) beforeUpdates
    (fun config => (config.state.calls .first).succeeded ∧ (config.state.calls .second).succeeded)
    [⟨.first, 1⟩, ⟨.first, 1⟩, ⟨.first, 1⟩, ⟨.second, 2⟩, ⟨.second, 2⟩, ⟨.second, 2⟩]
    (by decide +kernel) (by decide +kernel)
  have succeeded : ∀ caller, (config.state.calls caller).succeeded := by
    rintro (_ | _)
    · exact first
    · exact second
  exact ⟨config, reaches, succeeded,
    updates_kept_iff rfl renameAndEnd_disjoint (fun _ => rfl) reaches succeeded⟩

/-- When both calls read before either of them writes, the second write takes
the name back. -/
theorem not_updates_kept_readTwice :
    ∃ config, Reaches (updateStep plainHost renameAndEnd) (fun _ _ _ => True) beforeUpdates config ∧
      (∀ caller, (config.state.calls caller).succeeded) ∧
        ¬∀ caller, Keeps renameAndEnd config.state.meetings caller := by
  obtain ⟨config, reaches, first, second, titled⟩ := exists_reaches_of_exec
    (updateStep plainHost renameAndEnd) (fun _ _ _ => True) beforeUpdates
    (fun config => (config.state.calls .first).succeeded ∧ (config.state.calls .second).succeeded ∧
      ((config.state.meetings.find? (isLive "m")).all fun row => row.title = "Untitled meeting"))
    [⟨.first, 1⟩, ⟨.second, 1⟩, ⟨.first, 1⟩, ⟨.second, 2⟩, ⟨.first, 2⟩, ⟨.second, 2⟩]
    (by decide +kernel) (by decide +kernel)
  refine ⟨config, reaches, ?_, ?_⟩
  · rintro (_ | _)
    · exact first
    · exact second
  · intro kept
    obtain ⟨meeting, found, columns⟩ := kept .first
    obtain ⟨row, isFirst, rfl⟩ := readMeeting_eq_ok_iff.mp found
    have named : row.title = trimWhitespace "Review" := columns .title "Review" rfl
    have isFirst : config.state.meetings.find? (isLive "m") = some row := isFirst
    rw [isFirst] at titled
    have old : row.title = "Untitled meeting" := by simpa using titled
    exact absurd (named.symm.trans old) (by decide)

end Obelus.Meetings
