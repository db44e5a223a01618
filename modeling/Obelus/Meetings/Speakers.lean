import Obelus.Meetings.Tables

/-!
# Speakers

A request upserts speakers and swaps assignments, in one transaction.  The
assignment of a speaker is its display name, the source of the name and the
manual lock.
-/

namespace Obelus.Meetings

open Obelus.Data
open Validation

structure MeetingSpeakerInputDto where
  id : Option String
  defaultLabel : String
  displayName : Option String
  displayNameSource : Option String
  manualAssignmentLock : Bool
  sourceHint : Option MeetingAudioSourceKind

structure MeetingSpeakerSwapDto where
  firstSpeakerId : String
  secondSpeakerId : String

structure MeetingSegmentSpeakerUpdateDto where
  segmentId : String
  speakerId : String

structure MeetingSpeakersApplyRequest where
  meetingId : String
  speakers : List MeetingSpeakerInputDto
  swaps : List MeetingSpeakerSwapDto
  segmentUpdates : List MeetingSegmentSpeakerUpdateDto

structure SpeakersDb where
  meetings : List MeetingRow
  speakers : List MeetingSpeakerDto
  segments : List TranscriptSegmentRow

def maxSpeakersPerBatch : Nat := 128

def validateSpeakerInput (host : StoreHost) (speaker : MeetingSpeakerInputDto) : Checked := do
  whenPresent (uuid host) speaker.id
  optional speaker.defaultLabel 256 "invalid speaker label"
  optional speaker.displayName 256 "invalid speaker display name"
  optional speaker.displayNameSource 128 "invalid speaker name source"

/-- The meeting of a speaker and its identifier. -/
def MeetingSpeakerDto.place (speaker : MeetingSpeakerDto) : String × String :=
  (speaker.meetingId, speaker.id)

/-- `UNIQUE(meeting_id, default_label)` for the row of a speaker. -/
def labelIsFree (speakers : List MeetingSpeakerDto) (meetingId id label : String) : Prop :=
  ∀ speaker ∈ speakers, speaker.meetingId = meetingId → speaker.defaultLabel = label →
    speaker.id = id

instance (speakers : List MeetingSpeakerDto) (meetingId id label : String) :
    Decidable (labelIsFree speakers meetingId id label) :=
  inferInstanceAs (Decidable (∀ speaker ∈ speakers, _))

/-- The body of the loop over the speakers, which have identifiers by then. -/
def upsertSpeaker (now : Int) (meetingId : String) (speakers : List MeetingSpeakerDto)
    (speaker : MeetingSpeakerInputDto) : Change (List MeetingSpeakerDto) :=
  let id := speaker.id.getD ""
  let defaultLabel := trimWhitespace speaker.defaultLabel
  match lookup MeetingSpeakerDto.place speakers (meetingId, id) with
  | some existing => do
    ensure (labelIsFree speakers meetingId id defaultLabel) .database
    return updateWhere (fun row => row.place = (meetingId, id))
      (fun row =>
        if existing.manualAssignmentLock ∧ !speaker.manualAssignmentLock then
          { row with
            defaultLabel
            sourceHint := speaker.sourceHint <|> row.sourceHint
            updatedAtMs := now }
        else
          { row with
            defaultLabel
            displayName := speaker.displayName.map trimWhitespace
            displayNameSource := speaker.displayNameSource
            manualAssignmentLock := speaker.manualAssignmentLock
            sourceHint := speaker.sourceHint
            updatedAtMs := now }) speakers
  | none => do
    ensure (id ∉ speakers.map MeetingSpeakerDto.id ∧
      labelIsFree speakers meetingId id defaultLabel) .conflict
    return speakers ++
      [{ id
         meetingId
         defaultLabel
         displayName := speaker.displayName.map trimWhitespace
         displayNameSource := speaker.displayNameSource
         manualAssignmentLock := speaker.manualAssignmentLock
         sourceHint := speaker.sourceHint
         createdAtMs := now
         updatedAtMs := now }]

/-- Give one speaker the assignment of another. -/
def assignAs (now : Int) (meetingId id : String) (value : MeetingSpeakerDto)
    (speakers : List MeetingSpeakerDto) : List MeetingSpeakerDto :=
  updateWhere (fun row => row.place = (meetingId, id))
    (fun row =>
      { row with
        displayName := value.displayName
        displayNameSource := value.displayNameSource
        manualAssignmentLock := value.manualAssignmentLock
        updatedAtMs := now }) speakers

/-- The body of the loop over the swaps. -/
def swapSpeakers (host : StoreHost) (now : Int) (meetingId : String)
    (speakers : List MeetingSpeakerDto) (swap : MeetingSpeakerSwapDto) :
    Change (List MeetingSpeakerDto) := do
  uuid host swap.firstSpeakerId
  uuid host swap.secondSpeakerId
  invalid (swap.firstSpeakerId = swap.secondSpeakerId) "speaker swap identifiers must differ"
  match lookup MeetingSpeakerDto.place speakers (meetingId, swap.firstSpeakerId),
    lookup MeetingSpeakerDto.place speakers (meetingId, swap.secondSpeakerId) with
  | some first, some second =>
    return assignAs now meetingId swap.secondSpeakerId first
      (assignAs now meetingId swap.firstSpeakerId second speakers)
  | _, _ => .error .notFound

def updateSegmentSpeaker (host : StoreHost) (now : Int) (meetingId : String)
    (speakers : List MeetingSpeakerDto) (segments : List TranscriptSegmentRow)
    (update : MeetingSegmentSpeakerUpdateDto) : Change (List TranscriptSegmentRow) := do
  uuid host update.segmentId
  uuid host update.speakerId
  ensure ((∃ segment ∈ segments, segment.id = update.segmentId ∧ segment.meetingId = meetingId) ∧
    ∃ speaker ∈ speakers, speaker.place = (meetingId, update.speakerId)) .notFound
  return updateWhere (fun segment => segment.id = update.segmentId ∧ segment.meetingId = meetingId)
    (fun segment => { segment with speakerId := update.speakerId, updatedAtMs := now }) segments

def applySpeakersChanges (host : StoreHost) (now : Int) (request : MeetingSpeakersApplyRequest)
    (db : SpeakersDb) : Change (PUnit × SpeakersDb) := do
  uuid host request.meetingId
  invalid (maxSpeakersPerBatch < request.speakers.length ∨
    maxSpeakersPerBatch < request.swaps.length ∨
    maxSegmentsPerBatch < request.segmentUpdates.length) "speaker update batch is too large"
  ensure (∃ meeting ∈ db.meetings, meeting.id = request.meetingId ∧ meeting.deletedAtMs = none)
    .notFound
  forEach (fun speaker => do
    validateSpeakerInput host speaker
    invalid (speaker.id = none) "speaker identifier is required") request.speakers
  let speakers ← request.speakers.foldlM (upsertSpeaker now request.meetingId) db.speakers
  let speakers ← request.swaps.foldlM (swapSpeakers host now request.meetingId) speakers
  let segments ← request.segmentUpdates.foldlM
    (updateSegmentSpeaker host now request.meetingId speakers) db.segments
  let meetings := updateWhere (fun meeting => meeting.id = request.meetingId)
    (fun meeting => { meeting with updatedAtMs := now }) db.meetings
  return (⟨⟩, { meetings, speakers, segments })

/-- `apply_speakers`, without the listing of the speakers it answers with. -/
def applySpeakers (host : StoreHost) (now : Int) (request : MeetingSpeakersApplyRequest)
    (db : SpeakersDb) : Checked × SpeakersDb :=
  transaction (applySpeakersChanges host now request) db

structure Assignment where
  displayName : Option String
  displayNameSource : Option String
  manualAssignmentLock : Bool
  deriving DecidableEq

def MeetingSpeakerDto.assignment (speaker : MeetingSpeakerDto) : Assignment :=
  ⟨speaker.displayName, speaker.displayNameSource, speaker.manualAssignmentLock⟩

/-- The assignment of the speaker at a place. -/
def assignmentOf (speakers : List MeetingSpeakerDto) (place : String × String) :
    Option Assignment :=
  (lookup MeetingSpeakerDto.place speakers place).map MeetingSpeakerDto.assignment

/-- The assignment is kept where it is locked. -/
def KeepsLocked (place : String × String) (before after : List MeetingSpeakerDto) : Prop :=
  ∀ assignment ∈ assignmentOf before place, assignment.manualAssignmentLock →
    assignmentOf after place = some assignment

/-- An upsert sets the assignment of its speaker when it carries the manual lock. -/
def MeetingSpeakerInputDto.SetsAssignment (speaker : MeetingSpeakerInputDto) (meetingId : String)
    (place : String × String) : Prop :=
  (meetingId, speaker.id.getD "") = place ∧ speaker.manualAssignmentLock

/-- A swap sets the assignments of both its speakers. -/
def MeetingSpeakerSwapDto.SetsAssignment (swap : MeetingSpeakerSwapDto) (meetingId : String)
    (place : String × String) : Prop :=
  (meetingId, swap.firstSpeakerId) = place ∨ (meetingId, swap.secondSpeakerId) = place

def MeetingSpeakersApplyRequest.SetsAssignment (request : MeetingSpeakersApplyRequest)
    (place : String × String) : Prop :=
  (∃ speaker ∈ request.speakers, speaker.SetsAssignment request.meetingId place) ∨
    ∃ swap ∈ request.swaps, swap.SetsAssignment request.meetingId place

/-- Requests served one after another, each at its time. -/
def serveSpeakers (host : StoreHost) (deliveries : List (Int × MeetingSpeakersApplyRequest))
    (db : SpeakersDb) : SpeakersDb :=
  deliveries.foldl (fun db delivery => (applySpeakers host delivery.1 delivery.2 db).2) db

variable {host : StoreHost} {now later : Int} {meetingId : String} {place wanted : String × String}
  {speakers after : List MeetingSpeakerDto} {speaker : MeetingSpeakerInputDto}
  {swap : MeetingSpeakerSwapDto}

theorem KeepsLocked.trans {last : List MeetingSpeakerDto} (first : KeepsLocked place speakers after)
    (second : KeepsLocked place after last) : KeepsLocked place speakers last :=
  fun assignment known locked => second assignment (first assignment known locked) locked

/-- The assignments after a change of the row of one speaker. -/
theorem assignmentOf_updateWhere {change : MeetingSpeakerDto → MeetingSpeakerDto}
    (kept : ∀ row, (change row).place = row.place) :
    assignmentOf (updateWhere (fun row => row.place = wanted) change speakers) place =
      (lookup MeetingSpeakerDto.place speakers place).map fun row =>
        if place = wanted then (change row).assignment else row.assignment := by
  rw [assignmentOf, lookup_updateWhere kept, Option.map_map]
  refine Option.map_congr fun row found => ?_
  by_cases same : place = wanted <;> simp [(lookup_eq_some found).2, same]

theorem assignmentOf_assignAs {id : String} {value : MeetingSpeakerDto} :
    assignmentOf (assignAs now meetingId id value speakers) place =
      (assignmentOf speakers place).map fun stored =>
        if place = (meetingId, id) then value.assignment else stored := by
  refine (assignmentOf_updateWhere (by exact fun _ => rfl)).trans ?_
  rw [assignmentOf, Option.map_map]
  rfl

theorem keepsLocked_upsertSpeaker
    (upserted : upsertSpeaker now meetingId speakers speaker = .ok after)
    (automatic : ¬speaker.SetsAssignment meetingId place) : KeepsLocked place speakers after := by
  intro assignment known locked
  obtain ⟨stored, found, rfl⟩ := Option.map_eq_some_iff.mp known
  simp only [upsertSpeaker] at upserted
  split at upserted
  · rename_i existing foundExisting
    simp only [bind_eq_ok_iff, pure_eq_ok_iff] at upserted
    obtain ⟨_, -, rfl⟩ := upserted
    rw [assignmentOf_updateWhere (fun row => by split <;> rfl), found, Option.map_some]
    by_cases same : place = (meetingId, speaker.id.getD "")
    · rw [← same] at foundExisting
      cases found.symm.trans foundExisting
      have keeps : stored.manualAssignmentLock ∧ !speaker.manualAssignmentLock :=
        ⟨locked, by simpa using fun carries => automatic ⟨same.symm, carries⟩⟩
      rw [if_pos same, if_pos keeps]
      rfl
    · rw [if_neg same]
  · simp only [bind_eq_ok_iff, pure_eq_ok_iff] at upserted
    obtain ⟨_, -, rfl⟩ := upserted
    rw [assignmentOf, lookup_append, found]
    rfl

section

variable (swapped : swapSpeakers host now meetingId speakers swap = .ok after)
include swapped

/-- A swap exchanges two assignments, and can be made wherever both speakers are. -/
theorem swapSpeakers_eq_ok (later : Int) : swap.firstSpeakerId ≠ swap.secondSpeakerId ∧
      (∀ table, (assignmentOf table (meetingId, swap.firstSpeakerId)).isSome →
        (assignmentOf table (meetingId, swap.secondSpeakerId)).isSome →
          ∃ result, swapSpeakers host later meetingId table swap = .ok result) ∧
      ∃ first second, assignmentOf speakers (meetingId, swap.firstSpeakerId) = some first ∧
        assignmentOf speakers (meetingId, swap.secondSpeakerId) = some second ∧
        ∀ place, assignmentOf after place = (assignmentOf speakers place).map fun stored =>
          if place = (meetingId, swap.secondSpeakerId) then first else
            if place = (meetingId, swap.firstSpeakerId) then second else stored := by
  simp only [swapSpeakers, bind_eq_ok_iff, invalid_eq_ok_iff] at swapped ⊢
  obtain ⟨_, validFirst, _, validSecond, _, distinct, swapped⟩ := swapped
  refine ⟨distinct, fun table isFirst isSecond => ?_, ?_⟩
  · obtain ⟨first, foundFirst⟩ := Option.isSome_iff_exists.mp (Option.isSome_map ▸ isFirst)
    obtain ⟨second, foundSecond⟩ := Option.isSome_iff_exists.mp (Option.isSome_map ▸ isSecond)
    exact ⟨_, _, validFirst, _, validSecond, ⟨⟩, distinct, by rw [foundFirst, foundSecond]; rfl⟩
  · split at swapped
    · rename_i first second foundFirst foundSecond
      cases swapped
      refine ⟨first.assignment, second.assignment, ?_, ?_, fun place => ?_⟩
      · rw [assignmentOf, foundFirst, Option.map_some]
      · rw [assignmentOf, foundSecond, Option.map_some]
      · rw [assignmentOf_assignAs, assignmentOf_assignAs, Option.map_map]
        rfl
    · cases swapped

theorem keepsLocked_swapSpeakers (others : ¬swap.SetsAssignment meetingId place) :
    KeepsLocked place speakers after := by
  obtain ⟨-, -, _, _, -, -, assigned⟩ := swapSpeakers_eq_ok swapped now
  intro assignment known _
  rw [assigned, Option.mem_def.mp known, Option.map_some, if_neg (others ∘ .inr ∘ Eq.symm),
    if_neg (others ∘ .inl ∘ Eq.symm)]

/-- A swap made twice restores all assignments. -/
theorem swapSpeakers_twice :
    ∃ restored, swapSpeakers host later meetingId after swap = .ok restored ∧
      ∀ place, assignmentOf restored place = assignmentOf speakers place := by
  obtain ⟨distinct, again, first, second, isFirst, isSecond, assigned⟩ :=
    swapSpeakers_eq_ok swapped later
  obtain ⟨restored, swappedBack⟩ := again after
    (by rw [assigned, isFirst]; rfl) (by rw [assigned, isSecond]; rfl)
  refine ⟨restored, swappedBack, fun place => ?_⟩
  obtain ⟨-, -, first', second', isFirst', isSecond', assignedBack⟩ :=
    swapSpeakers_eq_ok swappedBack later
  -- The second swap finds the two assignments exchanged.
  have places : (meetingId, swap.firstSpeakerId) ≠ (meetingId, swap.secondSpeakerId) := by
    simpa using distinct
  rw [assigned, isFirst, Option.map_some, if_neg places] at isFirst'
  rw [assigned, isSecond] at isSecond'
  cases isFirst'
  cases isSecond'
  rw [assignedBack, assigned]
  by_cases atSecond : place = (meetingId, swap.secondSpeakerId)
  · simp [atSecond, isSecond]
  · by_cases atFirst : place = (meetingId, swap.firstSpeakerId)
    · simp [atFirst, isFirst, distinct]
    · simp [atSecond, atFirst]

end

theorem keepsLocked_applySpeakers {request : MeetingSpeakersApplyRequest} (db : SpeakersDb)
    (automatic : ¬request.SetsAssignment place) :
    KeepsLocked place db.speakers (applySpeakers host now request db).2.speakers := by
  rcases transaction_cases (applySpeakersChanges host now request) db with
    ⟨_, served, -⟩ | ⟨_, changed, served, applied⟩
  · rw [applySpeakers, served]
    exact fun _ known _ => known
  · rw [applySpeakers, served]
    simp only [applySpeakersChanges, bind_eq_ok_iff] at applied
    obtain ⟨_, -, _, -, _, -, _, -, upserted, upserts, swapped, swaps, _, -, stored⟩ := applied
    cases stored
    have byUpserts : KeepsLocked place db.speakers upserted :=
      foldlM_relation (fun _ _ known _ => known) (fun _ _ _ => KeepsLocked.trans)
        (fun speaker member _ _ stepped => keepsLocked_upsertSpeaker stepped fun sets =>
          automatic (.inl ⟨speaker, member, sets⟩)) upserts
    have bySwaps : KeepsLocked place upserted swapped :=
      foldlM_relation (fun _ _ known _ => known) (fun _ _ _ => KeepsLocked.trans)
        (fun swap member _ _ stepped => keepsLocked_swapSpeakers stepped fun sets =>
          automatic (.inr ⟨swap, member, sets⟩)) swaps
    exact byUpserts.trans bySwaps

/-- A locked assignment changes only by an upsert for its speaker that carries the lock or by
a swap of its speaker, whether taken one by one or over a run of requests, and a swap made
twice restores all assignments. -/
theorem lockedAssignment_kept (host : StoreHost) (place : String × String) :
    (∀ now meetingId speakers speaker after,
      upsertSpeaker now meetingId speakers speaker = .ok after →
        ¬speaker.SetsAssignment meetingId place → KeepsLocked place speakers after) ∧
    (∀ now meetingId speakers swap after,
      swapSpeakers host now meetingId speakers swap = .ok after →
        ¬swap.SetsAssignment meetingId place → KeepsLocked place speakers after) ∧
    (∀ deliveries db,
      (∀ delivery ∈ deliveries, ¬delivery.2.SetsAssignment place) →
        KeepsLocked place db.speakers (serveSpeakers host deliveries db).speakers) ∧
    ∀ now later meetingId speakers swap after,
      swapSpeakers host now meetingId speakers swap = .ok after →
        ∃ restored, swapSpeakers host later meetingId after swap = .ok restored ∧
          ∀ place, assignmentOf restored place = assignmentOf speakers place := by
  refine ⟨fun _ _ _ _ _ => keepsLocked_upsertSpeaker,
    fun _ _ _ _ _ => keepsLocked_swapSpeakers, fun deliveries db automatic => ?_,
    fun _ _ _ _ _ _ => swapSpeakers_twice⟩
  induction deliveries generalizing db with
  | nil => exact fun _ known _ => known
  | cons delivery rest ih =>
    rw [List.forall_mem_cons] at automatic
    exact (keepsLocked_applySpeakers db automatic.1).trans (ih _ automatic.2)

end Obelus.Meetings
