import Mathlib.Data.List.Infix
import Mathlib.Data.Prod.Lex
import Obelus.Data.Paging
import Obelus.Data.Text
import Obelus.Meetings.Tables

/-!
# Listing meetings

`list_meetings` answers the meetings that match a filter by the time of their
last change, newest first, in pages.  A page fetches one row more than it shows
and hands out the last row shown as the cursor of the next page.  Following the
cursors shows every matching meeting once.
-/

namespace Obelus.Meetings

open Obelus.Data Validation List

structure MeetingListCursorDto where
  updatedAtMs : Int
  meetingId : String

structure MeetingListRequest where
  artifactType : Option MeetingArtifactType
  statuses : List MeetingLifecycleStatus
  query : Option String
  cursor : Option MeetingListCursorDto
  limit : Option UInt32

structure MeetingListItemDto where
  meeting : MeetingDto
  durationMs : Option Int
  speakerNames : List String
  claimCount : UInt32
  completedResearchCount : UInt32
  totalResearchCount : UInt32

/-- The tables a listing reads.  Identifiers of meetings are unique and were
generated, and the clock that stamped the changes does not run before its epoch. -/
structure ListingDb (host : StoreHost) where
  meetings : List MeetingRecord
  speakers : List MeetingSpeakerDto
  segments : List TranscriptSegmentRow
  claims : List ClaimRow
  claimVersions : List ClaimVersionRow
  researchJobs : List ResearchJobRow
  uniqueIds : (meetings.map fun meeting => meeting.id).Nodup
  generatedIds : ∀ meeting ∈ meetings, host.isUuid meeting.id
  stamped : ∀ meeting ∈ meetings, 0 ≤ meeting.updatedAtMs

/-- The place of a cursor in the order of the listing, whose last key decides
among equal times. -/
def MeetingListCursorDto.rank (cursor : MeetingListCursorDto) : Int ×ₗ String :=
  toLex (cursor.updatedAtMs, cursor.meetingId)

theorem MeetingListCursorDto.rank_injective : Function.Injective rank := by
  rintro ⟨time, id⟩ ⟨time', id'⟩ same
  simpa using toLex.injective same

instance : LinearOrder MeetingListCursorDto :=
  LinearOrder.lift' MeetingListCursorDto.rank MeetingListCursorDto.rank_injective

/-- The condition of the query on the rows after a cursor is the order of the
listing. -/
theorem MeetingListCursorDto.lt_iff {first second : MeetingListCursorDto} :
    first < second ↔ first.updatedAtMs < second.updatedAtMs ∨
      (first.updatedAtMs = second.updatedAtMs ∧ first.meetingId < second.meetingId) :=
  Prod.Lex.toLex_lt_toLex

/-- The cursor that a meeting becomes when it is the last one shown. -/
def MeetingDto.cursor (meeting : MeetingDto) : MeetingListCursorDto where
  updatedAtMs := meeting.updatedAtMs
  meetingId := meeting.id

def defaultPageSize : UInt32 := 50
def maxPageSize : UInt32 := 200

/-- `u32::clamp`. -/
def clampU32 (low high number : UInt32) : UInt32 :=
  if number < low then low else if high < number then high else number

/-- The number of rows a page shows. -/
def MeetingListRequest.pageSize (request : MeetingListRequest) : UInt32 :=
  clampU32 1 maxPageSize (request.limit.getD defaultPageSize)

/-- The text to search for, when it is not blank. -/
def MeetingListRequest.search? (request : MeetingListRequest) : Option String :=
  (request.query.map trimWhitespace).filter fun query => query ≠ ""

/-- `instr(lower(text), lower(query)) > 0`; only ASCII letters change case. -/
def containsText (text query : String) : Bool :=
  query.toList.map Char.toLower <:+: text.toList.map Char.toLower

/-- The conditions of the query that stem from the filter. -/
def MeetingListRequest.selects (request : MeetingListRequest)
    (segments : List TranscriptSegmentRow) (meeting : MeetingRecord) : Bool :=
  meeting.deletedAtMs.isNone &&
    (request.artifactType.all fun artifactType => meeting.artifactType = artifactType) &&
    (request.statuses.isEmpty || meeting.status ∈ request.statuses) &&
    (request.search?.all fun query =>
      containsText meeting.title query ||
        segments.any fun segment =>
          segment.meetingId = meeting.id && containsText segment.finalizedText query)

/-- The condition of the query that stems from the cursor. -/
def MeetingListRequest.reaches (request : MeetingListRequest) (meeting : MeetingRecord) : Bool :=
  request.cursor.all fun cursor =>
    meeting.updatedAtMs < cursor.updatedAtMs ||
      (meeting.updatedAtMs = cursor.updatedAtMs && meeting.id < cursor.meetingId)

def validateListRequest (host : StoreHost) (request : MeetingListRequest) : Checked := do
  invalid (16 < request.statuses.length) "too many status filters"
  optional request.query 256 "invalid meeting search query"
  whenPresent (fun cursor => do
    uuid host cursor.meetingId
    invalid (cursor.updatedAtMs < 0) "invalid meeting list cursor") request.cursor

/-- The difference of two 64 bit numbers, cut off at the ends of their range. -/
def saturatingSub (first second : Int) : Int :=
  max (-2 ^ 63) (min (2 ^ 63 - 1) (first - second))

/-- `ORDER BY created_at_ms, default_label, id`. -/
def speakerPrecedes (first second : MeetingSpeakerDto) : Bool :=
  first.createdAtMs < second.createdAtMs || (first.createdAtMs = second.createdAtMs &&
    (first.defaultLabel < second.defaultLabel || (first.defaultLabel = second.defaultLabel &&
      first.id ≤ second.id)))

namespace ListingDb

variable {host : StoreHost}

def listSpeakers (db : ListingDb host) (meetingId : String) : List MeetingSpeakerDto :=
  (db.speakers.filter fun speaker => speaker.meetingId = meetingId).mergeSort speakerPrecedes

/-- The research jobs of a meeting, found through the versions of its claims. -/
def researchOf (db : ListingDb host) (meetingId : String) : List ResearchJobRow :=
  db.researchJobs.filter fun job => db.claimVersions.any fun version =>
    version.id = job.claimVersionId && db.claims.any fun claim =>
      claim.id = version.claimId && claim.meetingId = meetingId

def item (db : ListingDb host) (meeting : MeetingDto) : MeetingListItemDto where
  meeting := meeting
  durationMs := meeting.endedAtMs.map fun ended => saturatingSub ended meeting.startedAtMs
  speakerNames := (db.listSpeakers meeting.id).map MeetingSpeakerDto.shownName
  claimCount := UInt32.ofNat (db.claims.filter fun claim => claim.meetingId = meeting.id).length
  completedResearchCount := UInt32.ofNat
    ((db.researchOf meeting.id).filter fun job => job.status = .complete).length
  totalResearchCount := UInt32.ofNat (db.researchOf meeting.id).length

/-- The rows that match a filter, newest change first. -/
def sorted (db : ListingDb host) (condition : MeetingRecord → Bool) : List MeetingRecord :=
  sortDescending (fun meeting => meeting.toMeetingDto.cursor) (db.meetings.filter condition)

def listMeetings (db : ListingDb host) (request : MeetingListRequest) :
    Except MeetingStoreError (Page MeetingListItemDto MeetingListCursorDto) := do
  validateListRequest host request
  let limit := request.pageSize
  let rows := (db.sorted fun meeting =>
    request.selects db.segments meeting && request.reaches meeting).take (limit + 1).toNat
  let items := (rows.take limit.toNat).map fun row => db.item row.toMeetingDto
  return {
    items
    nextCursor :=
      if limit.toNat < rows.length then items.getLast?.map fun item => item.meeting.cursor
      else none }

variable (db : ListingDb host) (condition : MeetingRecord → Bool) (request : MeetingListRequest)

theorem cursors_nodup :
    ((db.meetings.filter condition).map fun meeting => meeting.toMeetingDto.cursor).Nodup := by
  apply Nodup.of_map MeetingListCursorDto.meetingId
  rw [map_map]
  exact db.uniqueIds.sublist (filter_sublist.map _)

/-- The rows behind a cursor are the rows below it in the order of the listing. -/
theorem sorted_reaches (cursor : Option MeetingListCursorDto) :
    (db.sorted fun meeting => request.selects db.segments meeting &&
        { request with cursor }.reaches meeting) =
      rowsAfter (fun meeting => meeting.toMeetingDto.cursor)
        (db.sorted (request.selects db.segments)) cursor := by
  cases cursor with
  | none => simp [rowsAfter, MeetingListRequest.reaches]
  | some cursor =>
    rw [rowsAfter, sorted, sorted, filter_sortDescending (db.cursors_nodup _), filter_filter]
    congr 2
    funext meeting
    rw [Bool.and_comm]
    simp [MeetingListRequest.reaches, MeetingListCursorDto.lt_iff, MeetingDto.cursor]

theorem pageSize_bounds : 0 < request.pageSize.toNat ∧ request.pageSize.toNat ≤ 200 := by
  unfold MeetingListRequest.pageSize clampU32
  split
  · decide
  · next notBelow =>
    have one : ¬_ < 1 := UInt32.lt_iff_toNat_lt.not.mp notBelow
    split
    · decide
    · next notAbove =>
      have bound : ¬200 < _ := UInt32.lt_iff_toNat_lt.not.mp notAbove
      omega

theorem pageSize_succ : (request.pageSize + 1).toNat = request.pageSize.toNat + 1 := by
  have bounds := pageSize_bounds request
  exact Nat.mod_eq_of_lt (by simp; omega)

/-- The cursor of a stored meeting passes the checks. -/
theorem validateListRequest_cursor {request : MeetingListRequest}
    (valid : validateListRequest host { request with cursor := none } = .ok ⟨⟩)
    {cursor : Option MeetingListCursorDto}
    (stored : ∀ place ∈ cursor, ∃ meeting ∈ db.meetings, meeting.toMeetingDto.cursor = place) :
    validateListRequest host { request with cursor } = .ok ⟨⟩ := by
  simp only [validateListRequest, bind_eq_ok_iff] at valid ⊢
  obtain ⟨_, statuses, _, query, -⟩ := valid
  refine ⟨_, statuses, _, query, ?_⟩
  cases cursor with
  | none => rfl
  | some place =>
    obtain ⟨meeting, member, rfl⟩ := stored place rfl
    have identified := db.generatedIds meeting member
    have stamped := db.stamped meeting member
    simp only [whenPresent, bind_eq_ok_iff, uuid, ensure_eq_ok_iff, invalid_eq_ok_iff]
    exact ⟨⟨⟩, identified, not_lt.mpr stamped⟩

theorem mem_sorted {db : ListingDb host} {condition : MeetingRecord → Bool}
    {meeting : MeetingRecord} :
    meeting ∈ db.sorted condition ↔ meeting ∈ db.meetings ∧ condition meeting := by
  rw [sorted, mem_sortDescending, mem_filter]

theorem sorted_pairwise : (db.sorted condition).Pairwise fun first second =>
      second.toMeetingDto.cursor < first.toMeetingDto.cursor :=
  sortDescending_pairwise (db.cursors_nodup condition)

/-- A page is cut from the rows behind its cursor. -/
theorem listMeetings_eq {request : MeetingListRequest} {cursor : Option MeetingListCursorDto}
    (valid : validateListRequest host { request with cursor } = .ok ⟨⟩) :
    db.listMeetings { request with cursor } = .ok
      { items := ((rowsAfter (fun meeting => meeting.toMeetingDto.cursor)
            (db.sorted (request.selects db.segments)) cursor).take request.pageSize.toNat).map
              fun row => db.item row.toMeetingDto
        nextCursor := (cutPage (fun meeting => meeting.toMeetingDto.cursor) request.pageSize.toNat
          (rowsAfter (fun meeting => meeting.toMeetingDto.cursor)
            (db.sorted (request.selects db.segments)) cursor)).nextCursor } := by
  have limits : { request with cursor }.pageSize = request.pageSize := rfl
  have selected : { request with cursor }.selects = request.selects := rfl
  rw [listMeetings, valid, limits, selected, sorted_reaches]
  simp only [pageSize_succ]
  generalize rowsAfter _ _ cursor = rows
  have shown : (rows.take (request.pageSize.toNat + 1)).take request.pageSize.toNat =
      rows.take request.pageSize.toNat := by
    rw [take_take, Nat.min_eq_left (Nat.le_succ _)]
  have more : request.pageSize.toNat < (rows.take (request.pageSize.toNat + 1)).length ↔
      request.pageSize.toNat < rows.length := by
    rw [length_take]
    omega
  simp only [shown, more, getLast?_map, Option.map_map]
  rfl

theorem listMeetings_listsAfter
    (valid : validateListRequest host { request with cursor := none } = .ok ⟨⟩) :
    ListsAfter (fun item => item.meeting) MeetingDto.cursor
      ((db.sorted (request.selects db.segments)).map MeetingRecord.toMeetingDto)
      request.pageSize.toNat fun cursor => db.listMeetings { request with cursor } := by
  intro cursor isShown
  have stored : ∀ place ∈ cursor, ∃ meeting ∈ db.meetings,
      meeting.toMeetingDto.cursor = place := by
    intro place isCursor
    obtain ⟨dto, member, rfl⟩ := isShown place isCursor
    obtain ⟨meeting, row, rfl⟩ := mem_map.mp member
    exact ⟨meeting, (mem_sorted.mp row).1, rfl⟩
  refine ⟨_, db.listMeetings_eq (db.validateListRequest_cursor valid stored), ?_, ?_⟩
  · simp [rowsAfter_map, item, Function.comp_def, map_take]
  · simp only [rowsAfter_map, cutPage, length_map, ← map_take, getLast?_map, Option.map_map]
    rfl

end ListingDb

/-- The conditions of a filter on a meeting. -/
structure MeetingListRequest.Matches (request : MeetingListRequest)
    (segments : List TranscriptSegmentRow) (meeting : MeetingRecord) : Prop where
  live : meeting.deletedAtMs = none
  artifactType : ∀ artifactType ∈ request.artifactType, meeting.artifactType = artifactType
  status : request.statuses = [] ∨ meeting.status ∈ request.statuses
  text : ∀ query ∈ request.search?, containsText meeting.title query ∨
    ∃ segment ∈ segments, segment.meetingId = meeting.id ∧
      containsText segment.finalizedText query

theorem MeetingListRequest.selects_iff {request : MeetingListRequest}
    {segments : List TranscriptSegmentRow} {meeting : MeetingRecord} :
    request.selects segments meeting ↔ request.Matches segments meeting := by
  have searched : (request.search?.all fun query =>
      containsText meeting.title query || segments.any fun segment =>
        segment.meetingId = meeting.id && containsText segment.finalizedText query) ↔
      ∀ query ∈ request.search?, containsText meeting.title query ∨
        ∃ segment ∈ segments, segment.meetingId = meeting.id ∧
          containsText segment.finalizedText query := by
    cases request.search? <;> simp
  have typed : (request.artifactType.all fun artifactType => meeting.artifactType = artifactType) ↔
      ∀ artifactType ∈ request.artifactType, meeting.artifactType = artifactType := by
    cases request.artifactType <;> simp
  rw [selects, Bool.and_eq_true, Bool.and_eq_true, Bool.and_eq_true, searched, typed]
  constructor
  · rintro ⟨⟨⟨live, artifactType⟩, status⟩, text⟩
    exact ⟨by simpa using live, artifactType, by simpa using status, text⟩
  · rintro ⟨live, artifactType, status, text⟩
    exact ⟨⟨⟨by simpa using live, artifactType⟩, by simpa using status⟩, text⟩

/-- The order in which meetings are listed. -/
def MeetingDto.ListedBefore (first second : MeetingDto) : Prop :=
  second.updatedAtMs < first.updatedAtMs ∨
    (second.updatedAtMs = first.updatedAtMs ∧ second.id < first.id)

/-- Following the cursors of a filter that is accepted, from the first page on
to a page without a cursor, lists every matching meeting once, newest change
first. -/
theorem listMeetings_complete {host : StoreHost} (db : ListingDb host)
    (request : MeetingListRequest) {page : Page MeetingListItemDto MeetingListCursorDto}
    (accepted : db.listMeetings { request with cursor := none } = .ok page) :
    ∃ items, Followed (fun cursor => db.listMeetings { request with cursor }) none items ∧
      (items.map fun item => item.meeting).Pairwise MeetingDto.ListedBefore ∧
        ∀ meeting, (∃ item ∈ items, item.meeting = meeting) ↔
          ∃ row ∈ db.meetings, row.toMeetingDto = meeting ∧ request.Matches db.segments row := by
  have valid : validateListRequest host { request with cursor := none } = .ok ⟨⟩ := by
    rw [ListingDb.listMeetings, bind_eq_ok_iff] at accepted
    obtain ⟨_, valid, -⟩ := accepted
    exact valid
  have descending := db.sorted_pairwise (request.selects db.segments)
  obtain ⟨items, followed, shown⟩ := (db.listMeetings_listsAfter request valid).followed
    (ListingDb.pageSize_bounds request).1 (pairwise_map.mpr descending)
  refine ⟨items, followed, ?_, ?_⟩
  · rw [shown]
    apply pairwise_map.mpr
    exact descending.imp MeetingListCursorDto.lt_iff.mp
  · intro meeting
    have listed : (∃ item ∈ items, item.meeting = meeting) ↔
        meeting ∈ items.map fun item => item.meeting := mem_map.symm
    rw [listed, shown, mem_map]
    apply exists_congr
    intro row
    rw [ListingDb.mem_sorted, MeetingListRequest.selects_iff, and_assoc]
    exact and_congr_right fun _ => and_comm

/-- Two of three live meetings changed at the same time. -/
def equalTimes : ListingDb plainHost :=
  let meeting (id : String) (updatedAtMs : Int) (deletedAtMs : Option Int) : MeetingRecord :=
    { id, updatedAtMs, deletedAtMs, title := "Weekly", artifactType := .meeting, mode := .call
      status := .complete, startedAtMs := 0, endedAtMs := some 60
      canonicalTranscriptVersionId := none, captureStatus := .complete
      refinementStatus := .complete, researchStatus := .complete, lastError := none
      createdAtMs := 0 }
  { meetings := [meeting "a" 5 none, meeting "b" 9 none, meeting "c" 5 none,
      meeting "d" 7 (some 7)]
    speakers := [], segments := [], claims := [], claimVersions := [], researchJobs := []
    uniqueIds := by decide
    generatedIds := by decide
    stamped := by decide }

/-- A search that shows one meeting a page. -/
def oneByOne : MeetingListRequest where
  artifactType := some .meeting
  statuses := [.complete]
  query := some " week "
  cursor := none
  limit := some 1

theorem listMeetings_complete_equalTimes :
    ∃ items, Followed (fun cursor => equalTimes.listMeetings { oneByOne with cursor }) none items ∧
      (items.map fun item => item.meeting).Pairwise MeetingDto.ListedBefore ∧
        ∀ meeting, (∃ item ∈ items, item.meeting = meeting) ↔
          ∃ row ∈ equalTimes.meetings, row.toMeetingDto = meeting ∧
            oneByOne.Matches equalTimes.segments row :=
  listMeetings_complete equalTimes oneByOne (equalTimes.listMeetings_eq (by rfl))

end Obelus.Meetings
