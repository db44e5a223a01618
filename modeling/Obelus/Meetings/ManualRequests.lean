import Obelus.Meetings.ClaimChain

/-!
# The lifecycle of manual fact-check requests

What a manual request asks for never changes once it is stored, and its status moves along
the transitions the store allows.
-/

namespace Obelus.Meetings

open Obelus.Data
open List hiding lookup
open Obelus.Transition

/-- The tables of manual requests. -/
structure ManualTables where
  requests : List ManualFactCheckRequestRow
  contextTurns : List ManualFactCheckContextTurnRow
  segments : List ManualFactCheckSegmentRow
  deriving DecidableEq

def ClaimTables.manual (tables : ClaimTables) : ManualTables :=
  ⟨tables.manualRequests, tables.contextTurns, tables.requestSegments⟩

def ManualTables.request (tables : ManualTables) (id : String) :
    Option ManualFactCheckRequestRow :=
  lookup ManualFactCheckRequestRow.id tables.requests id

/-- The status of a row moves as allowed, and the rest of the request stays. -/
structure ManualTables.KeepsRow (before after : ManualTables) (row : ManualFactCheckRequestRow)
    (id : String) : Prop where
  row : ∃ later, after.request id = some later ∧
    manualFactCheckStatusTransitionAllowed row.status later.status ∧
    later = { row with
      status := later.status
      error := later.error
      updatedAtMs := later.updatedAtMs }
  contextTurns : after.contextTurns.filter (fun turn => turn.requestId = id) =
    before.contextTurns.filter fun turn => turn.requestId = id
  segments : after.segments.filter (fun segment => segment.requestId = id) =
    before.segments.filter fun segment => segment.requestId = id

def ManualTables.Keeps (before after : ManualTables) : Prop :=
  ∀ id, ∀ row ∈ before.request id, before.KeepsRow after row id

/-- The content of a submitted request is stored. -/
def ManualTables.Holds (host : StoreHost) (tables : ManualTables)
    (value : MeetingManualFactCheckRequestUpsertDto) : Prop :=
  ∃ row ∈ tables.request value.id, row.contentHash = host.blake3 value.semantic.tokens

/-- The status and error of a submitted request are those stored. -/
def ManualTables.Repeats (tables : ManualTables)
    (value : MeetingManualFactCheckRequestUpsertDto) : Prop :=
  ∃ row ∈ tables.request value.id, row.status = value.status ∧ row.error = value.error

/-- The digest tells the contents of two requests apart. -/
def StoreHost.TellsApart (host : StoreHost)
    (first second : MeetingManualFactCheckRequestUpsertDto) : Prop :=
  host.blake3 first.semantic.tokens = host.blake3 second.semantic.tokens →
    first.semantic = second.semantic

/-- The manual requests of a request to the store. -/
def StoreRequest.manualFactCheckRequests :
    StoreRequest → List MeetingManualFactCheckRequestUpsertDto
  | .transcript _ => []
  | .claims request => request.manualFactCheckRequests

variable {host : StoreHost} {tables after last : ManualTables} {row : ManualFactCheckRequestRow}
  {value original : MeetingManualFactCheckRequestUpsertDto} {now : Int} {meetingId : String}
  {db : MeetingsDb} {claims changed : ClaimTables} {delivery : Delivery}

theorem transition_refl (status : MeetingManualFactCheckRequestStatus) :
    manualFactCheckStatusTransitionAllowed status status := by
  simp [manualFactCheckStatusTransitionAllowed]

theorem transition_trans {first second third : MeetingManualFactCheckRequestStatus}
    (start : manualFactCheckStatusTransitionAllowed first second)
    (next : manualFactCheckStatusTransitionAllowed second third) :
    manualFactCheckStatusTransitionAllowed first third := by
  cases first <;> cases second <;> cases third <;>
    first | rfl | exact absurd start (by decide) | exact absurd next (by decide)

namespace ManualTables

theorem Keeps.refl (tables : ManualTables) : tables.Keeps tables :=
  fun _ row found => ⟨⟨row, found, transition_refl row.status, rfl⟩, rfl, rfl⟩

theorem Keeps.trans (first : tables.Keeps after) (second : after.Keeps last) :
    tables.Keeps last := by
  intro id row found
  obtain ⟨⟨later, foundLater, moved, same⟩, turns, segments⟩ := first id row found
  obtain ⟨⟨final, foundFinal, movedLater, sameLater⟩, turnsLater, segmentsLater⟩ :=
    second id later foundLater
  refine ⟨⟨final, foundFinal, transition_trans moved movedLater, ?_⟩,
    turnsLater.trans turns, segmentsLater.trans segments⟩
  rw [sameLater, same]

theorem Holds.kept (holds : tables.Holds host value) (kept : tables.Keeps after) :
    after.Holds host value := by
  obtain ⟨row, found, content⟩ := holds
  obtain ⟨⟨later, foundLater, -, same⟩, -, -⟩ := kept _ row found
  refine ⟨later, foundLater, ?_⟩
  rw [same]
  exact content

end ManualTables

open ManualTables

/-- Rows of another owner stay those they are when rows of one owner are added. -/
theorem filter_append_of_owned {ρ : Type} {owner : ρ → String} {rows added : List ρ}
    {id other : String} (owned : ∀ row ∈ added, owner row = id) (ne : id ≠ other) :
    (rows ++ added).filter (fun row => owner row = other) =
      rows.filter fun row => owner row = other := by
  rw [filter_append, append_right_eq_self, filter_eq_nil_iff]
  intro row member
  simpa [owned row member] using ne

/-- What an accepted manual request leaves. -/
theorem upsertManualFactCheckRequest_eq_ok
    (applied : upsertManualFactCheckRequest host now meetingId db claims value = .ok changed) :
    claims.manual.Keeps changed.manual ∧ changed.manual.Holds host value ∧
      (claims.manual.Repeats value → changed = claims) := by
  simp only [upsertManualFactCheckRequest, bind_eq_ok_iff] at applied
  obtain ⟨_, -, applied⟩ := applied
  split at applied
  · rename_i row found
    simp only [bind_eq_ok_iff, ensure_eq_ok_iff] at applied
    obtain ⟨_, ⟨-, content⟩, applied⟩ := applied
    have repeats : claims.manual.Repeats value ↔
        row.status = value.status ∧ row.error = value.error := by
      simp [Repeats, request, ClaimTables.manual, found]
    have holds : claims.manual.Holds host value := ⟨row, found, content⟩
    rw [repeats]
    split at applied
    · cases applied
      exact ⟨Keeps.refl _, holds, fun _ => rfl⟩
    · rename_i moves
      simp only [bind_eq_ok_iff, ensure_eq_ok_iff] at applied
      obtain ⟨_, moved, stored⟩ := applied
      cases stored
      suffices kept : claims.manual.Keeps _ from ⟨kept, holds.kept kept, fun same =>
        absurd same moves⟩
      intro id before foundBefore
      have updated := @lookup_updateWhere _ _ (fun stored => stored.id = value.id)
        (fun stored =>
          { stored with status := value.status, error := value.error, updatedAtMs := now })
        claims.manualRequests _ ManualFactCheckRequestRow.id (fun _ => rfl) id
      replace foundBefore : lookup ManualFactCheckRequestRow.id claims.manualRequests id =
        some before := foundBefore
      rw [foundBefore] at updated
      refine ⟨⟨_, updated, ?_⟩, rfl, rfl⟩
      by_cases isValue : before.id = value.id
      · rw [← (lookup_eq_some foundBefore).2, isValue] at foundBefore
        cases found.symm.trans foundBefore
        simp [isValue, moved]
      · simp [isValue, transition_refl]
  · rename_i missing
    simp only [bind_eq_ok_iff] at applied
    obtain ⟨_, -, _, -, stored⟩ := applied
    cases stored
    have inserted := @lookup_snoc _ _ _ ManualFactCheckRequestRow.id _
      (.ofUpsert host meetingId value now) (lookup_eq_none_iff.mp missing)
    refine ⟨fun id row found => ?_, ⟨_, (inserted value.id).trans (if_pos rfl), rfl⟩, ?_⟩
    · have other : value.id ≠ id := by
        rintro rfl
        exact absurd (missing.symm.trans found) nofun
      refine ⟨⟨row, ?_, transition_refl _, rfl⟩, filter_append_of_owned ?_ other,
        filter_append_of_owned ?_ other⟩
      · exact (inserted id).trans ((if_neg other.symm).trans found)
      all_goals
        intro added member
        obtain ⟨_, _, rfl⟩ := mem_mapIdx.mp member
        rfl
    · rintro ⟨row, found, -⟩
      exact absurd (missing.symm.trans found) nofun

theorem manual_applyClaimVersion {value : MeetingClaimVersionUpsertDto}
    (applied : applyClaimVersion host now meetingId db claims value = .ok changed) :
    changed.manual = claims.manual := by
  obtain ⟨-, rfl⟩ := applyClaimVersion_eq_ok_iff.mp applied
  split
  · rw [setCurrentVersion_eq]
    rfl
  · rfl

theorem manual_markClaimVersionStale {id : String}
    (applied : markClaimVersionStale now meetingId claims id = .ok changed) :
    changed.manual = claims.manual := by
  simp only [markClaimVersionStale, bind_eq_ok_iff] at applied
  obtain ⟨-, -, stored⟩ := applied
  cases stored
  rfl

/-- An accepted request upserts its manual requests one after another. -/
theorem serve_manual (host : StoreHost) (delivery : Delivery) (db : MeetingsDb) :
    (∃ error, serve host delivery db = (.error error, db)) ∨
      ∃ meetingId claims, delivery.request.manualFactCheckRequests.foldlM
        (upsertManualFactCheckRequest host delivery.now meetingId db) db.claims = .ok claims ∧
          (serve host delivery db).2.claims.manual = claims.manual := by
  rcases serve_cases host delivery db with ⟨error, served, -⟩ | ⟨changed, served, applied⟩
  · exact .inl ⟨error, served⟩
  · right
    rw [served]
    rcases delivery with ⟨now, request | request⟩
    · obtain ⟨_, applied⟩ := applied
      obtain ⟨_, _, kept⟩ := applyTranscriptChanges_eq_ok applied
      exact ⟨"", db.claims, rfl, congrArg ClaimTables.manual kept.claims⟩
    · simp only [applyClaimsChanges, bind_eq_ok_iff] at applied
      obtain ⟨_, -, _, -, claims, manual, _, -, versioned, versions, marked, stale, _, -,
        stored⟩ := applied
      cases stored
      refine ⟨request.meetingId, claims, manual, ?_⟩
      have kept : versioned.manual = claims.manual :=
        foldlM_invariant (fun tables => tables.manual = claims.manual)
          (fun _ _ _ _ stepped same => (manual_applyClaimVersion stepped).trans same) versions rfl
      exact foldlM_invariant (fun tables => tables.manual = claims.manual)
        (fun _ _ _ _ stepped same => (manual_markClaimVersionStale stepped).trans same) stale kept

/-- What one request does to stored manual requests. -/
theorem serve_keeps (host : StoreHost) (delivery : Delivery) (db : MeetingsDb) :
    (∃ error, serve host delivery db = (.error error, db)) ∨
      db.claims.manual.Keeps (serve host delivery db).2.claims.manual ∧
        ∀ value ∈ delivery.request.manualFactCheckRequests,
          (serve host delivery db).2.claims.manual.Holds host value := by
  refine (serve_manual host delivery db).imp_right ?_
  rintro ⟨_, claims, folded, same⟩
  rw [same]
  apply foldlM_history (fun done tables => db.claims.manual.Keeps tables.manual ∧
    ∀ value ∈ done, tables.manual.Holds host value) [] ?_ folded ⟨Keeps.refl _, nofun⟩
  intro done value _ before after stepped ⟨kept, held⟩
  obtain ⟨keeps, holds, -⟩ := upsertManualFactCheckRequest_eq_ok stepped
  refine ⟨kept.trans keeps, fun submitted member => ?_⟩
  rcases mem_append.mp member with earlier | isValue
  · exact (held submitted earlier).kept keeps
  · rw [mem_singleton.mp isValue]
    exact holds

/-- Requests that repeat the stored status and error change nothing. -/
theorem serve_of_repeats (repeats : ∀ value ∈ delivery.request.manualFactCheckRequests,
      db.claims.manual.Repeats value) :
    (serve host delivery db).2.claims.manual = db.claims.manual := by
  rcases serve_manual host delivery db with ⟨_, served⟩ | ⟨_, claims, folded, same⟩
  · rw [served]
  · have unchanged : claims = db.claims := by
      refine foldlM_invariant (· = db.claims) ?_ folded rfl
      rintro value requested _ after stepped rfl
      exact (upsertManualFactCheckRequest_eq_ok stepped).2.2 (repeats value requested)
    rw [same, unchanged]

/-- A request that holds another content under an identifier is rejected. -/
theorem serve_of_other_content (holds : db.claims.manual.Holds host original)
    (requested : value ∈ delivery.request.manualFactCheckRequests) (same : value.id = original.id)
    (apart : host.TellsApart original value) (other : original.semantic ≠ value.semantic) :
    ∃ error, serve host delivery db = (.error error, db) := by
  rcases serve_keeps host delivery db with failed | ⟨kept, held⟩
  · exact failed
  · obtain ⟨row, found, content⟩ := holds.kept kept
    obtain ⟨_, foundNow, contentNow⟩ := held value requested
    rw [same] at foundNow
    cases Option.mem_unique found foundNow
    exact absurd (apart (content.symm.trans contentNow)) other

/-- The requests stored before a run are kept, and those accepted in it are stored. -/
def MeetingsDb.Remembers (host : StoreHost) (db : MeetingsDb) (config : Config MeetingsDb Answer) :
    Prop :=
  db.claims.manual.Keeps config.state.claims.manual ∧
    ∀ accepted ∈ config.trace, accepted.result = .ok ⟨⟩ →
      ∀ original ∈ accepted.request.manualFactCheckRequests,
        config.state.claims.manual.Holds host original

/-- In every run the requests stored at any point keep their content and move along allowed
transitions; other content under the identifier of an accepted request is rejected, and what
repeats the stored status and error changes no request. -/
theorem manualRequests_follow_lifecycle (host : StoreHost) (db : MeetingsDb)
    {config : Config MeetingsDb Answer}
    (reached : Reaches (step host) (fun _ _ _ => True) db config) :
    db.claims.manual.Keeps config.state.claims.manual ∧
      ∀ delivery,
        (∀ accepted ∈ config.trace, accepted.result = .ok ⟨⟩ →
          ∀ original ∈ accepted.request.manualFactCheckRequests,
          ∀ value ∈ delivery.request.manualFactCheckRequests, value.id = original.id →
            host.TellsApart original value → original.semantic ≠ value.semantic →
              ∃ error, serve host delivery config.state = (.error error, config.state)) ∧
        ((∀ value ∈ delivery.request.manualFactCheckRequests,
            config.state.claims.manual.Repeats value) →
          (serve host delivery config.state).2.claims.manual = config.state.claims.manual) := by
  have remembers : db.Remembers host config := by
    apply reached.invariant (db.Remembers host)
    · exact ⟨Keeps.refl _, fun _ member => absurd member not_mem_nil⟩
    · intro before next delivery _ ⟨kept, held⟩ advanced _
      obtain ⟨state, trace⟩ := advance_eq_some advanced
      have served := serve_keeps host delivery before.state
      unfold MeetingsDb.Remembers
      rw [state, trace]
      generalize serve host delivery before.state = outcome at served
      rcases served with ⟨error, rfl⟩ | ⟨keeps, holds⟩
      · refine ⟨kept, fun accepted member isOk => ?_⟩
        rcases mem_append.mp member with earlier | isLast
        · exact held accepted earlier isOk
        · rw [mem_singleton.mp isLast] at isOk
          cases isOk
      · refine ⟨kept.trans keeps, fun accepted member isOk original requested => ?_⟩
        rcases mem_append.mp member with earlier | isLast
        · exact (held accepted earlier isOk original requested).kept keeps
        · rw [mem_singleton.mp isLast] at requested
          exact holds original requested
  exact ⟨remembers.1, fun delivery =>
    ⟨fun accepted member isOk original requested value submitted same =>
      serve_of_other_content (remembers.2 accepted member isOk original requested) submitted same,
    serve_of_repeats⟩⟩

/-- A manual request with a turn of text for context. -/
def recordedManual (now : Int) (status : MeetingManualFactCheckRequestStatus)
    (selectedText : String := "two thirds") : Delivery where
  now
  request := .claims
    { meetingId := recordedMeetingId
      manualFactCheckRequests :=
        [⟨"request-1", selectedText, [⟨"turn-1", none, 0, 1000, "two thirds agreed", 1, .text⟩],
          [], none, none, none, status, none⟩]
      claimVersions := []
      markStaleClaimVersionIds := []
      beginClaimGateBatches := []
      completeClaimGateBatchIds := [] }

/-- A stored request is processed, refused with another selection, and put off. -/
theorem manualRequests_follow_lifecycle_recordedManual :
    ∃ db config, Reaches (step recordedHost) (fun _ _ _ => True) db config ∧
      (db.claims.manual.request "request-1").isSome = true ∧
      config.trace.map (fun answer => answer.result.isOk) = [true, false, true] ∧
      db.claims.manual.Keeps config.state.claims.manual ∧
      (∃ error, serve recordedHost (recordedManual 50 .complete "agreed") config.state =
        (.error error, config.state)) ∧
      (serve recordedHost (recordedManual 60 .retryWait) config.state).2.claims.manual =
        config.state.claims.manual := by
  obtain ⟨config, reaches, isSome, results, ⟨accepted, member, isOk, original, requested, value,
      submitted, same, apart⟩, repeats⟩ := exists_reaches_of_exec (step recordedHost)
    (fun _ _ _ => True) (serve recordedHost (recordedManual 10 .queued) recordedDb).2
    (fun config => ((serve recordedHost (recordedManual 10 .queued)
        recordedDb).2.claims.manual.request "request-1").isSome = true ∧
      config.trace.map (fun answer => answer.result.isOk) = [true, false, true] ∧
      (∃ accepted ∈ config.trace, accepted.result = .ok ⟨⟩ ∧
        ∃ original ∈ accepted.request.manualFactCheckRequests,
        ∃ value ∈ (recordedManual 50 .complete "agreed").request.manualFactCheckRequests,
          value.id = original.id ∧ recordedHost.blake3 original.semantic.tokens ≠
            recordedHost.blake3 value.semantic.tokens) ∧
      ∀ value ∈ (recordedManual 60 .retryWait).request.manualFactCheckRequests,
        ∃ row ∈ config.state.claims.manual.request value.id,
          row.status = value.status ∧ row.error = value.error)
    [ recordedManual 20 .processing, recordedManual 30 .processing "agreed",
      recordedManual 40 .retryWait ] (by decide +kernel) (by decide +kernel)
  have follows := manualRequests_follow_lifecycle recordedHost _ reaches
  exact ⟨_, config, reaches, isSome, results, follows.1,
    (follows.2 _).1 accepted member isOk original requested value submitted same
      (fun sameDigest => absurd sameDigest apart)
      (fun sameContent => apart (congrArg (fun content => recordedHost.blake3 content.tokens)
        sameContent)),
    (follows.2 _).2 repeats⟩

/-- A request delivered again after the status moved on moves it back. -/
theorem manualRequest_moves_back : ∃ config ∈ exec (step recordedHost) (Config.initial recordedDb)
        [recordedManual 20 .processing, recordedManual 30 .retryWait],
      config.trace.map Answer.result = [.ok ⟨⟩, .ok ⟨⟩] ∧
        (serve recordedHost (recordedManual 40 .processing) config.state).2.claims.manual ≠
          config.state.claims.manual := by
  decide +kernel

end Obelus.Meetings
