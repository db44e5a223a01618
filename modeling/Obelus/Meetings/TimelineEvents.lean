import Obelus.Meetings.Tables

/-!
# Timeline events

A request stores the events of a timeline in one transaction.  A stored event changes only
by the end that closes an open pause or sleep.
-/

namespace Obelus.Meetings

open Obelus.Data
open Validation

inductive MeetingTimelineEventKind
  | pause
  | resume
  | sleep
  | wake
  | captureGap
  | deviceChange
  | sttReconnectGap
  deriving DecidableEq

structure MeetingTimelineEventInputDto where
  id : String
  kind : MeetingTimelineEventKind
  startMs : Int
  endMs : Option Int
  sourceKind : Option MeetingAudioSourceKind
  providerNamespace : Option String
  metadata : Option Json

structure MeetingTimelineApplyRequest where
  meetingId : String
  events : List MeetingTimelineEventInputDto

structure TimelineEventRow where
  id : String
  meetingId : String
  kind : MeetingTimelineEventKind
  startMs : Int
  endMs : Option Int
  sourceKind : Option MeetingAudioSourceKind
  providerNamespace : Option String
  metadataJson : Option (List JsonToken)
  createdAtMs : Int

structure TimelineDb where
  meetings : List MeetingRow
  events : List TimelineEventRow

def maxEventsPerBatch : Nat := 256

/-- The kinds whose events may be closed later. -/
def MeetingTimelineEventKind.IsInterval (kind : MeetingTimelineEventKind) : Prop :=
  kind = .pause ∨ kind = .sleep

instance : DecidablePred MeetingTimelineEventKind.IsInterval := fun _ =>
  inferInstanceAs (Decidable (_ ∨ _))

/-- `immutable_fields_match`. -/
def TimelineEventRow.Matches (row : TimelineEventRow) (meetingId : String)
    (event : MeetingTimelineEventInputDto) : Prop :=
  row.meetingId = meetingId ∧ row.kind = event.kind ∧ row.startMs = event.startMs ∧
    row.sourceKind = event.sourceKind ∧ row.providerNamespace = event.providerNamespace ∧
    row.metadataJson = event.metadata.map Json.tokens

instance (row : TimelineEventRow) (meetingId : String) (event : MeetingTimelineEventInputDto) :
    Decidable (row.Matches meetingId event) :=
  inferInstanceAs (Decidable (_ ∧ _ ∧ _ ∧ _ ∧ _ ∧ _))

def validateTimelineEvent (host : StoreHost) (event : MeetingTimelineEventInputDto) : Checked := do
  uuid host event.id
  timestampRange event.startMs event.endMs
  optional event.providerNamespace 256 "invalid event namespace"
  jsonSize host event.metadata

/-- The body of the loop over the events.  The update finds the row that was just read. -/
def applyTimelineEvent (now : Int) (meetingId : String) (events : List TimelineEventRow)
    (event : MeetingTimelineEventInputDto) : Change (List TimelineEventRow) :=
  match lookup TimelineEventRow.id events event.id with
  | some row =>
    if ¬row.Matches meetingId event then .error .conflict
    else if row.endMs = event.endMs then .ok events
    else if event.kind.IsInterval ∧ row.endMs = none ∧ event.endMs ≠ none then
      .ok (updateWhere (fun stored => stored.id = event.id)
        (fun stored => { stored with endMs := event.endMs }) events)
    else .error .conflict
  | none =>
    .ok (events ++
      [{ id := event.id
         meetingId
         kind := event.kind
         startMs := event.startMs
         endMs := event.endMs
         sourceKind := event.sourceKind
         providerNamespace := event.providerNamespace
         metadataJson := event.metadata.map Json.tokens
         createdAtMs := now }])

/-- The checks of a request, of which only the one of the meeting reads the store. -/
def validateTimeline (host : StoreHost) (request : MeetingTimelineApplyRequest)
    (meetings : List MeetingRow) : Checked := do
  uuid host request.meetingId
  invalid (maxEventsPerBatch < request.events.length) "timeline event batch is too large"
  ensure (∃ meeting ∈ meetings, meeting.id = request.meetingId ∧ meeting.deletedAtMs = none)
    .notFound
  forEach (validateTimelineEvent host) request.events

def applyTimelineChanges (host : StoreHost) (now : Int) (request : MeetingTimelineApplyRequest)
    (db : TimelineDb) : Change (PUnit × TimelineDb) := do
  validateTimeline host request db.meetings
  let events ← request.events.foldlM (applyTimelineEvent now request.meetingId) db.events
  let meetings := updateWhere (fun meeting => meeting.id = request.meetingId)
    (fun meeting => { meeting with updatedAtMs := now }) db.meetings
  return (⟨⟩, { meetings, events })

/-- `apply_timeline`, without the listing of the events it answers with. -/
def applyTimeline (host : StoreHost) (now : Int) (request : MeetingTimelineApplyRequest)
    (db : TimelineDb) : Checked × TimelineDb :=
  transaction (applyTimelineChanges host now request) db

/-- Requests served one after another, each at its time. -/
def serveTimeline (host : StoreHost) (deliveries : List (Int × MeetingTimelineApplyRequest))
    (db : TimelineDb) : TimelineDb :=
  deliveries.foldl (fun db delivery => (applyTimeline host delivery.1 delivery.2 db).2) db

/-- A row stays, but an open interval may get its end. -/
structure TimelineEventRow.ClosesTo (before after : TimelineEventRow) : Prop where
  kept : after = { before with endMs := after.endMs }
  closed : after.endMs = before.endMs ∨ before.kind.IsInterval ∧ before.endMs = none

/-- Every stored event stays, and at most closes. -/
def OnlyCloses (before after : List TimelineEventRow) : Prop :=
  ∀ id, ∀ row ∈ lookup TimelineEventRow.id before id,
    ∃ later ∈ lookup TimelineEventRow.id after id, row.ClosesTo later

/-- The row of an accepted event: an end that was given is the stored one. -/
def Covers (meetingId : String) (events : List TimelineEventRow)
    (event : MeetingTimelineEventInputDto) : Prop :=
  ∃ row ∈ lookup TimelineEventRow.id events event.id,
    row.Matches meetingId event ∧ (event.endMs = none ∨ row.endMs = event.endMs)

/-- The stored ends are those of the events. -/
def SameEnds (events : List TimelineEventRow) (given : List MeetingTimelineEventInputDto) : Prop :=
  ∀ event ∈ given, ∀ row ∈ lookup TimelineEventRow.id events event.id, row.endMs = event.endMs

variable {host : StoreHost} {now : Int} {meetingId : String}
  {before after last : List TimelineEventRow} {event : MeetingTimelineEventInputDto}

theorem OnlyCloses.refl (events : List TimelineEventRow) : OnlyCloses events events :=
  fun _ row stored => ⟨row, stored, rfl, .inl rfl⟩

theorem OnlyCloses.trans (first : OnlyCloses before after) (second : OnlyCloses after last) :
    OnlyCloses before last := by
  intro id row stored
  obtain ⟨between, storedBetween, kept, closed⟩ := first id row stored
  obtain ⟨later, storedLater, keptLater, closedLater⟩ := second id between storedBetween
  refine ⟨later, storedLater, by rw [keptLater, kept], ?_⟩
  rw [kept] at closedLater
  rcases closedLater with same | ⟨isInterval, isOpen⟩
  · exact same ▸ closed
  · rcases closed with same | opened
    · exact .inr ⟨isInterval, same ▸ isOpen⟩
    · exact .inr opened

theorem Covers.of_onlyCloses (covers : Covers meetingId before event)
    (closes : OnlyCloses before after) : Covers meetingId after event := by
  obtain ⟨row, stored, matched, sameEnd⟩ := covers
  obtain ⟨later, storedLater, kept, closed⟩ := closes event.id row stored
  refine ⟨later, storedLater, by rw [kept]; exact matched, ?_⟩
  rcases sameEnd with isOpen | sameEnd
  · exact .inl isOpen
  · rcases closed with unchanged | ⟨-, wasOpen⟩
    · exact .inr (unchanged.trans sameEnd)
    · exact .inl (sameEnd ▸ wasOpen)

theorem onlyCloses_applyTimelineEvent
    (applied : applyTimelineEvent now meetingId before event = .ok after) :
    OnlyCloses before after ∧ Covers meetingId after event := by
  unfold applyTimelineEvent at applied
  split at applied
  · rename_i row found
    split_ifs at applied with matched same opened
    · cases applied
      exact ⟨.refl before, row, found, matched, .inr same⟩
    · cases applied
      have lookedUp : ∀ id, lookup TimelineEventRow.id
          (updateWhere (fun stored => stored.id = event.id)
            (fun stored => { stored with endMs := event.endMs }) before) id =
            (lookup TimelineEventRow.id before id).map fun stored =>
              if stored.id = event.id then { stored with endMs := event.endMs } else stored := by
        intro id
        refine (lookup_updateWhere (by exact fun _ => rfl) id).trans ?_
        simp
      constructor
      · intro id stored isStored
        rw [lookedUp, isStored, Option.map_some]
        refine ⟨_, rfl, ?_⟩
        by_cases here : stored.id = event.id
        · rw [(lookup_eq_some isStored).2] at here
          cases (here ▸ isStored).symm.trans found
          have isInterval : row.kind.IsInterval := matched.2.1 ▸ opened.1
          split
          · exact ⟨rfl, .inr ⟨isInterval, opened.2.1⟩⟩
          · exact ⟨rfl, .inl rfl⟩
        · rw [if_neg here]
          exact ⟨rfl, .inl rfl⟩
      · refine ⟨{ row with endMs := event.endMs }, ?_, matched, .inr rfl⟩
        rw [lookedUp, found]
        simp [(lookup_eq_some found).2]
  · rename_i absent
    cases applied
    constructor
    · intro id row stored
      exact ⟨row, by rw [lookup_append, stored]; rfl, rfl, .inl rfl⟩
    · simp [Covers, TimelineEventRow.Matches, lookup_append, absent, lookup_cons]

theorem onlyCloses_foldlM {given : List MeetingTimelineEventInputDto}
    (applied : given.foldlM (applyTimelineEvent now meetingId) before = .ok after) :
    OnlyCloses before after ∧ ∀ event ∈ given, Covers meetingId after event := by
  refine foldlM_history
    (fun done events => OnlyCloses before events ∧ ∀ event ∈ done, Covers meetingId events event)
    [] (fun done event _ events next stepped soFar => ?_) applied ⟨.refl before, by simp⟩
  obtain ⟨closes, covers⟩ := onlyCloses_applyTimelineEvent stepped
  refine ⟨soFar.1.trans closes, fun other member => ?_⟩
  rcases List.mem_append.mp member with earlier | new
  · exact (soFar.2 other earlier).of_onlyCloses closes
  · rw [List.mem_singleton.mp new]
    exact covers

/-- An accepted event is accepted again, and changes nothing, while its end is stored. -/
theorem applyTimelineEvent_covers (now : Int) (covers : Covers meetingId before event) :
    (SameEnds before [event] → applyTimelineEvent now meetingId before event = .ok before) ∧
      (¬SameEnds before [event] →
        applyTimelineEvent now meetingId before event = .error .conflict) := by
  obtain ⟨row, stored, matched, sameEnd⟩ := covers
  have found : lookup TimelineEventRow.id before event.id = some row := stored
  simp only [SameEnds, List.forall_mem_singleton, applyTimelineEvent, found, matched,
    Option.mem_some_iff, forall_eq', not_true_eq_false, if_false]
  refine ⟨fun same => if_pos same, fun differs => ?_⟩
  rw [if_neg differs, if_neg]
  rintro ⟨-, -, isClosed⟩
  exact sameEnd.elim isClosed differs

theorem foldlM_covers {given : List MeetingTimelineEventInputDto} (now : Int)
    (covers : ∀ event ∈ given, Covers meetingId before event) :
    (SameEnds before given → given.foldlM (applyTimelineEvent now meetingId) before = .ok before) ∧
      (¬SameEnds before given →
        given.foldlM (applyTimelineEvent now meetingId) before = .error .conflict) := by
  induction given with
  | nil => exact ⟨fun _ => rfl, fun differs => absurd (by simp [SameEnds]) differs⟩
  | cons event rest ih =>
    rw [List.forall_mem_cons] at covers
    have first := applyTimelineEvent_covers now covers.1
    have others := ih covers.2
    have ends : SameEnds before (event :: rest) ↔
        SameEnds before [event] ∧ SameEnds before rest := by
      simp [SameEnds]
    rw [ends, List.foldlM_cons]
    by_cases same : SameEnds before [event]
    · rw [first.1 same]
      simpa [same] using others
    · rw [first.2 same]
      exact ⟨fun both => absurd both.1 same, fun _ => rfl⟩

theorem applyTimeline_cases (host : StoreHost) (now : Int) (request : MeetingTimelineApplyRequest)
    (db : TimelineDb) : (∃ error, applyTimeline host now request db = (.error error, db)) ∨
      validateTimeline host request db.meetings = .ok ⟨⟩ ∧
        ∃ events, request.events.foldlM (applyTimelineEvent now request.meetingId) db.events =
          .ok events ∧
          applyTimeline host now request db = (.ok ⟨⟩,
            { meetings := updateWhere (fun meeting => meeting.id = request.meetingId)
                (fun meeting => { meeting with updatedAtMs := now }) db.meetings
              events }) := by
  rcases transaction_cases (applyTimelineChanges host now request) db with
    ⟨error, served, -⟩ | ⟨_, changed, served, applied⟩
  · exact .inl ⟨error, served⟩
  · simp only [applyTimelineChanges, bind_eq_ok_iff] at applied
    obtain ⟨_, valid, events, folded, stored⟩ := applied
    cases stored
    exact .inr ⟨valid, events, folded, served⟩

theorem onlyCloses_applyTimeline (host : StoreHost) (now : Int)
    (request : MeetingTimelineApplyRequest) (db : TimelineDb) :
    OnlyCloses db.events (applyTimeline host now request db).2.events := by
  rcases applyTimeline_cases host now request db with ⟨_, served⟩ | ⟨-, _, folded, served⟩
  · rw [served]
    exact .refl db.events
  · rw [served]
    exact (onlyCloses_foldlM folded).1

theorem onlyCloses_serveTimeline (host : StoreHost)
    (deliveries : List (Int × MeetingTimelineApplyRequest))
    (db : TimelineDb) : OnlyCloses db.events (serveTimeline host deliveries db).events := by
  induction deliveries generalizing db with
  | nil => exact .refl db.events
  | cons delivery rest ih =>
    exact (onlyCloses_applyTimeline host delivery.1 delivery.2 db).trans (ih _)

/-- No request takes a meeting away, so a valid request stays valid. -/
theorem validateTimeline_serveTimeline {request : MeetingTimelineApplyRequest} {db : TimelineDb}
    (deliveries : List (Int × MeetingTimelineApplyRequest))
    (valid : validateTimeline host request db.meetings = .ok ⟨⟩) :
    validateTimeline host request (serveTimeline host deliveries db).meetings = .ok ⟨⟩ := by
  induction deliveries generalizing db with
  | nil => exact valid
  | cons delivery rest ih =>
    apply ih
    dsimp only
    rcases applyTimeline_cases host delivery.1 delivery.2 db with ⟨_, served⟩ | ⟨-, _, -, served⟩
    · rw [served]
      exact valid
    · rw [served]
      simp only [validateTimeline, bind_eq_ok_iff, ensure_eq_ok_iff] at valid ⊢
      obtain ⟨_, isUuid, _, isSmall, _, ⟨meeting, member, isMeeting, visible⟩, others⟩ := valid
      refine
        ⟨_, isUuid, _, isSmall, ⟨⟩, ⟨_, mem_updateWhere.mpr ⟨meeting, member, rfl⟩, ?_⟩, others⟩
      split <;> exact ⟨isMeeting, visible⟩

/-- A run of requests closes stored events only, a rejected request changes nothing, and an
accepted one that is delivered again later is accepted and changes no event if the ends that
are stored by then are its own, and is rejected as a conflict otherwise. -/
theorem timelineEvents_onlyClose (host : StoreHost) :
    (∀ deliveries db, OnlyCloses db.events (serveTimeline host deliveries db).events) ∧
      (∀ now request db, (applyTimeline host now request db).1 ≠ .ok ⟨⟩ →
        (applyTimeline host now request db).2 = db) ∧
      ∀ now later request deliveries db, (applyTimeline host now request db).1 = .ok ⟨⟩ →
        let stored := serveTimeline host deliveries (applyTimeline host now request db).2
        (SameEnds stored.events request.events →
          (applyTimeline host later request stored).1 = .ok ⟨⟩ ∧
            (applyTimeline host later request stored).2.events = stored.events) ∧
          (¬SameEnds stored.events request.events →
            applyTimeline host later request stored = (.error .conflict, stored)) := by
  refine ⟨onlyCloses_serveTimeline host, fun now request db rejected => ?_, ?_⟩
  · rcases applyTimeline_cases host now request db with ⟨_, served⟩ | ⟨-, _, -, served⟩
    · rw [served]
    · exact absurd (by rw [served]) rejected
  · intro now later request deliveries db accepted
    rcases applyTimeline_cases host now request db with ⟨_, served⟩ | ⟨valid, _, folded, served⟩
    · rw [served] at accepted
      cases accepted
    · intro stored
      have validLater : validateTimeline host request stored.meetings = .ok ⟨⟩ :=
        validateTimeline_serveTimeline ((now, request) :: deliveries) valid
      have closes := onlyCloses_serveTimeline host deliveries (applyTimeline host now request db).2
      rw [congrArg (fun outcome => outcome.2.events) served] at closes
      have covers : ∀ event ∈ request.events, Covers request.meetingId stored.events event :=
        fun event member => ((onlyCloses_foldlM folded).2 event member).of_onlyCloses closes
      have again := foldlM_covers later covers
      constructor
      · intro same
        simp [applyTimeline, transaction, applyTimelineChanges, validLater, again.1 same,
          bind, Except.bind, pure, Except.pure]
      · intro differs
        simp [applyTimeline, transaction, applyTimelineChanges, validLater, again.2 differs,
          bind, Except.bind]

section Recorded

def recordedPause (endMs : Option Int) : MeetingTimelineApplyRequest where
  meetingId := "meeting"
  events := [⟨"pause", .pause, 10, endMs, none, none, none⟩]

/-- A pause that is closed by a second request. -/
def closedPause (host : StoreHost) : TimelineDb :=
  serveTimeline host [(1, recordedPause none), (2, recordedPause (some 20))]
    { meetings := [⟨"meeting", none, none, 0⟩], events := [] }

/-- The open form of an event is rejected once the event is closed. -/
theorem openForm_rejected : ∃ host : StoreHost,
    (applyTimeline host 1 (recordedPause none)
      { meetings := [⟨"meeting", none, none, 0⟩], events := [] }).1 = .ok ⟨⟩ ∧
    (applyTimeline host 3 (recordedPause none) (closedPause host)).1 = .error .conflict :=
  ⟨⟨fun _ => true, fun _ => 0, fun _ => ""⟩, by decide +kernel, by decide +kernel⟩

end Recorded

end Obelus.Meetings
