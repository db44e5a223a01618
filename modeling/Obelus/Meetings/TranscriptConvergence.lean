import Mathlib.Data.List.MinMax
import Obelus.Meetings.Store
import Obelus.Meetings.TranscriptErrors

/-!
# Convergence of transcript requests

Requests for one transcript version arrive in any order and any number of
times.  A segment ends up as the newest submission of it that was accepted, in
all its columns and with its replacements.
-/

namespace Obelus.Meetings

open Obelus.Data List
open Obelus.Transition

/-- The segments of the transcript requests of a run. -/
def submittedSegments (answers : List Answer) : List MeetingTranscriptSegmentUpsertDto :=
  answers.flatMap fun answer =>
    match answer.request with
    | .transcript request => request.segments
    | .claims _ => []

/-- The segments of the requests that succeeded. -/
def acceptedSegments (answers : List Answer) : List MeetingTranscriptSegmentUpsertDto :=
  answers.flatMap fun answer =>
    match answer.request, answer.result with
    | .transcript request, .ok _ => request.segments
    | _, _ => []

theorem mem_submittedSegments_of_accepted {answers : List Answer}
    {value : MeetingTranscriptSegmentUpsertDto} (accepted : value ∈ acceptedSegments answers) :
    value ∈ submittedSegments answers := by
  simp only [acceptedSegments, submittedSegments, mem_flatMap] at accepted ⊢
  obtain ⟨answer, member, accepted⟩ := accepted
  refine ⟨answer, member, ?_⟩
  cases request : answer.request with
  | transcript request =>
    cases result : answer.result with
    | ok _ => simpa [request, result] using accepted
    | error _ => simp [request, result] at accepted
  | claims request => simp [request] at accepted

/-- Every request is a transcript request for one version of one meeting. -/
def forVersion (meetingId versionId : String) : Guard MeetingsDb Delivery Answer :=
  fun _ delivery _ =>
    match delivery.request with
    | .transcript request => request.meetingId = meetingId ∧ request.version.id = versionId
    | .claims _ => False

instance (meetingId versionId : String) (config : Config MeetingsDb Answer) (delivery : Delivery)
    (next : Config MeetingsDb Answer) :
    Decidable (forVersion meetingId versionId config delivery next) :=
  match request : delivery.request with
  | .transcript transcript =>
    decidable_of_iff (transcript.meetingId = meetingId ∧ transcript.version.id = versionId)
      (by simp [forVersion, request])
  | .claims _ => isFalse (by simp [forVersion, request])

/-- A submission of a segment that is newer than the row in a base state. -/
def isNewer (base : TranscriptTables) (id : String)
    (value : MeetingTranscriptSegmentUpsertDto) : Bool :=
  value.id = id ∧ ∀ stored ∈ base.segment id, stored.revisionNumber < asI64 value.revisionNumber

/-- The newest of the submissions of a segment that a base state lacks. -/
def newest? (base : TranscriptTables) (id : String)
    (accepted : List MeetingTranscriptSegmentUpsertDto) :
    Option MeetingTranscriptSegmentUpsertDto :=
  @List.argmax _ Int Int.instLinearOrder.toPreorder _ (fun value => asI64 value.revisionNumber)
    (accepted.filter (isNewer base id))

/-- The tables hold the content of a submission. -/
def Holds (host : StoreHost) (meetingId : String) (tables : TranscriptTables)
    (value : MeetingTranscriptSegmentUpsertDto) : Prop :=
  (∃ row, tables.segment value.id = some row ∧ row.HasContent host meetingId value) ∧
    tables.replacedBy value.id = value.replacedLiveSegmentIds

/-- A segment is as the newest accepted submission has it, or as it was. -/
def HoldsNewest (host : StoreHost) (meetingId : String) (base : TranscriptTables) (id : String)
    (accepted : List MeetingTranscriptSegmentUpsertDto) (tables : TranscriptTables) : Prop :=
  match newest? base id accepted with
  | none => tables.segment id = base.segment id ∧ tables.replacedBy id = base.replacedBy id
  | some newest => Holds host meetingId tables newest

section Newest

variable {host : StoreHost} {meetingId id : String} {base : TranscriptTables}
  {accepted : List MeetingTranscriptSegmentUpsertDto}
  {value newest : MeetingTranscriptSegmentUpsertDto}

theorem isNewer_of_newest? (found : newest? base id accepted = some newest) :
    newest ∈ accepted ∧ newest.id = id ∧
      ∀ stored ∈ base.segment id, stored.revisionNumber < asI64 newest.revisionNumber := by
  obtain ⟨member, newer⟩ := mem_filter.mp (argmax_mem found)
  exact ⟨member, of_decide_eq_true newer⟩

/-- The newest submission after one more. -/
theorem newest?_snoc : newest? base id (accepted ++ [value]) =
      if isNewer base id value then
        match newest? base id accepted with
        | none => some value
        | some newest =>
          if asI64 newest.revisionNumber < asI64 value.revisionNumber then some value
          else some newest
      else newest? base id accepted := by
  unfold newest?
  by_cases newer : isNewer base id value
  · rw [if_pos newer, filter_append, filter_cons_of_pos newer, filter_nil, argmax_concat]
    cases (accepted.filter (isNewer base id)).argmax fun value => asI64 value.revisionNumber with
    | none => rfl
    | some _ => rfl
  · rw [if_neg newer, filter_append, filter_cons_of_neg newer, filter_nil, append_nil]

theorem exists_stored_of_not_isNewer (notNewer : ¬isNewer base value.id value) :
    ∃ stored, base.segment value.id = some stored ∧
      asI64 value.revisionNumber ≤ stored.revisionNumber := by
  simpa [isNewer] using notNewer

end Newest

theorem holdsNewest_nil {host : StoreHost} {meetingId id : String} {base : TranscriptTables} :
    HoldsNewest host meetingId base id [] base :=
  ⟨rfl, rfl⟩

section Upserted

variable {host : StoreHost} {now : Int} {meetingId id : String} {speakers : List SpeakerRow}
  {value : MeetingTranscriptSegmentUpsertDto} {base before after : TranscriptTables}
  {outcome : MeetingUpsertOutcomeKind} {accepted : List MeetingTranscriptSegmentUpsertDto}

theorem Holds.frame {newest : MeetingTranscriptSegmentUpsertDto}
    (holds : Holds host meetingId before newest)
    (segment : after.segment newest.id = before.segment newest.id)
    (replaced : after.replacedBy newest.id = before.replacedBy newest.id) :
    Holds host meetingId after newest := by
  unfold Holds
  rw [segment, replaced]
  exact holds

theorem HoldsNewest.frame (holds : HoldsNewest host meetingId base id accepted before)
    (segment : after.segment id = before.segment id)
    (replaced : after.replacedBy id = before.replacedBy id) :
    HoldsNewest host meetingId base id accepted after := by
  unfold HoldsNewest at holds ⊢
  cases found : newest? base id accepted with
  | none =>
    rw [found] at holds
    exact ⟨segment.trans holds.1, replaced.trans holds.2⟩
  | some newest =>
    rw [found] at holds
    obtain ⟨-, rfl, -⟩ := isNewer_of_newest? found
    exact Holds.frame holds segment replaced

/-- One upsert: the newest submission is still what the tables hold. -/
theorem HoldsNewest.upserted (holds : HoldsNewest host meetingId base id accepted before)
    (upserted : SegmentUpserted host now meetingId speakers value before outcome after) :
    HoldsNewest host meetingId base id (accepted ++ [value]) after := by
  by_cases isSegment : value.id = id
  case neg =>
    have framed := holds.frame (upserted.segment_of_ne (Ne.symm isSegment))
      (upserted.replacedBy_of_ne (Ne.symm isSegment))
    unfold HoldsNewest at framed ⊢
    rwa [newest?_snoc, if_neg (by simp [isNewer, isSegment])]
  case pos =>
    subst isSegment
    unfold HoldsNewest at holds ⊢
    rw [newest?_snoc]
    by_cases newer : isNewer base value.id value
    · rw [if_pos newer]
      cases found : newest? base value.id accepted with
      | none =>
        simp only [found] at holds ⊢
        exact upserted.segment_of_written (holds.1 ▸ (of_decide_eq_true newer).2)
      | some newest =>
        simp only [found] at holds ⊢
        obtain ⟨row, present, content⟩ := holds.1
        rw [(isNewer_of_newest? found).2.1] at present
        by_cases older : asI64 newest.revisionNumber < asI64 value.revisionNumber
        · rw [if_pos older]
          refine upserted.segment_of_written fun stored isStored => ?_
          obtain rfl : row = stored := Option.some_inj.mp (present.symm.trans isStored)
          rwa [content.revisionNumber_eq]
        · rw [if_neg older,
            upserted.eq_of_stored present (content.revisionNumber_eq ▸ not_lt.mp older)]
          exact holds
    · rw [if_neg newer]
      obtain ⟨stored, inBase, notOlder⟩ := exists_stored_of_not_isNewer newer
      cases found : newest? base value.id accepted with
      | none =>
        simp only [found] at holds ⊢
        rw [upserted.eq_of_stored (holds.1.trans inBase) notOlder]
        exact holds
      | some newest =>
        simp only [found] at holds ⊢
        obtain ⟨row, present, content⟩ := holds.1
        obtain ⟨-, sameId, newerThanBase⟩ := isNewer_of_newest? found
        rw [sameId] at present
        have older := newerThanBase stored inBase
        rw [upserted.eq_of_stored present (by rw [content.revisionNumber_eq]; omega)]
        exact holds

end Upserted

section Runs

variable {host : StoreHost} {meetingId id : String} {base : TranscriptTables}

/-- The version and the observations of a request change no segment. -/
theorem TranscriptApplied.holdsNewest {now : Int} {request : MeetingTranscriptApplyRequest}
    {before after : MeetingsDb} {versioned : TranscriptTables} {progress : SegmentProgress}
    (applied : TranscriptApplied host now request before after versioned progress)
    {accepted : List MeetingTranscriptSegmentUpsertDto}
    (distinct : before.transcript.DistinctSegments)
    (holds : HoldsNewest host request.meetingId base id accepted before.transcript) :
    after.transcript.DistinctSegments ∧
      HoldsNewest host request.meetingId base id (accepted ++ request.segments)
        after.transcript := by
  have versioned_eq := upsertTranscriptVersion_eq_ok applied.version
  have folded := foldlM_history
    (fun (accepted : List MeetingTranscriptSegmentUpsertDto) (progress : SegmentProgress) =>
      progress.transcript.DistinctSegments ∧
        HoldsNewest host request.meetingId base id accepted progress.transcript) accepted
    (fun _ _ _ _ _ stepped ⟨distinct, holds⟩ =>
      let ⟨_, upserted, _⟩ := applySegment_eq_ok stepped
      ⟨upserted.distinctSegments distinct, holds.upserted upserted⟩)
    applied.segments (by rw [versioned_eq]; exact ⟨distinct, holds⟩)
  rw [applied.transcript]
  exact folded

/-- One request: the segments of a successful one count as accepted. -/
theorem holdsNewest_served {versionId : String} {config next : Config MeetingsDb Answer}
    {delivery : Delivery} (distinct : config.state.transcript.DistinctSegments)
    (holds : HoldsNewest host meetingId base id (acceptedSegments config.trace)
      config.state.transcript)
    (advanced : advance (step host) config delivery = some next)
    (ours : forVersion meetingId versionId config delivery next) :
    next.state.transcript.DistinctSegments ∧
      HoldsNewest host meetingId base id (acceptedSegments next.trace) next.state.transcript := by
  obtain ⟨served, traced⟩ := advance_eq_some advanced
  rw [traced, acceptedSegments, flatMap_append, ← acceptedSegments, served]
  unfold forVersion at ours
  obtain ⟨error, failed⟩ | ⟨changed, succeeded, applied⟩ := serve_cases host delivery config.state
  · simpa [failed] using ⟨distinct, holds⟩
  · cases requested : delivery.request with
    | claims request => simp [requested] at ours
    | transcript request =>
      simp only [requested] at ours applied
      obtain ⟨outcomes, applied⟩ := applied
      obtain ⟨versioned, progress, applied⟩ := applyTranscriptChanges_eq_ok applied
      obtain ⟨rfl, -⟩ := ours
      simpa [succeeded] using applied.holdsNewest distinct holds

/-- At the end of every run a segment is as the newest accepted submission has
it. -/
theorem holdsNewest_of_reaches (id : String) {start : MeetingsDb} {versionId : String}
    (distinct : start.transcript.DistinctSegments) {config : Config MeetingsDb Answer}
    (reaches : Reaches (step host) (forVersion meetingId versionId) start config) :
    config.state.transcript.DistinctSegments ∧
      HoldsNewest host meetingId start.transcript id (acceptedSegments config.trace)
        config.state.transcript :=
  reaches.invariant
    (fun config => config.state.transcript.DistinctSegments ∧
      HoldsNewest host meetingId start.transcript id (acceptedSegments config.trace)
        config.state.transcript)
    ⟨distinct, holdsNewest_nil⟩
    fun _ _ _ _ ⟨distinct, holds⟩ advanced ours => holdsNewest_served distinct holds advanced ours

end Runs

/-- Submissions with the same segment and revision have the same content, and
revisions fit the column. -/
def Consistent (submitted : List MeetingTranscriptSegmentUpsertDto) : Prop :=
  (∀ first ∈ submitted, ∀ second ∈ submitted, first.id = second.id →
    first.revisionNumber = second.revisionNumber → first = second) ∧
  ∀ value ∈ submitted, value.revisionNumber.toNat < 2 ^ 63

instance (submitted : List MeetingTranscriptSegmentUpsertDto) : Decidable (Consistent submitted) :=
  inferInstanceAs (Decidable (_ ∧ _))

/-- A submission has the highest revision of its segment. -/
def IsHighest (values : List MeetingTranscriptSegmentUpsertDto)
    (newest : MeetingTranscriptSegmentUpsertDto) : Prop :=
  newest ∈ values ∧
    ∀ other ∈ values, other.id = newest.id → other.revisionNumber ≤ newest.revisionNumber

instance (values : List MeetingTranscriptSegmentUpsertDto)
    (newest : MeetingTranscriptSegmentUpsertDto) : Decidable (IsHighest values newest) :=
  inferInstanceAs (Decidable (_ ∧ _))

/-- In consistent submissions the newest one is the highest one. -/
theorem newest?_eq_some_of_isHighest {base : TranscriptTables}
    {accepted : List MeetingTranscriptSegmentUpsertDto}
    {highest : MeetingTranscriptSegmentUpsertDto} (consistent : Consistent accepted)
    (isHighest : IsHighest accepted highest)
    (newer : ∀ stored ∈ base.segment highest.id,
      stored.revisionNumber < highest.revisionNumber.toNat) :
    newest? base highest.id accepted = some highest := by
  obtain ⟨agree, inRange⟩ := consistent
  obtain ⟨member, isHighest⟩ := isHighest
  have candidate : highest ∈ accepted.filter (isNewer base highest.id) := by
    refine mem_filter.mpr ⟨member, decide_eq_true ⟨rfl, ?_⟩⟩
    rwa [asI64_of_lt (inRange highest member)]
  cases found : newest? base highest.id accepted with
  | none =>
    rw [newest?, argmax_eq_none] at found
    simp [found] at candidate
  | some newest =>
    obtain ⟨newestMember, sameId, -⟩ := isNewer_of_newest? found
    have notLower := le_of_mem_argmax candidate found
    rw [asI64_of_lt (inRange highest member), asI64_of_lt (inRange newest newestMember),
      Int.ofNat_le] at notLower
    have sameRevision : newest.revisionNumber = highest.revisionNumber :=
      UInt64.le_antisymm (isHighest newest newestMember sameId)
        (UInt64.le_iff_toNat_le.mpr notLower)
    rw [agree newest newestMember highest member sameId sameRevision]

/-- Whatever the order and the repetitions of its transcript requests, a
version converges: a failed request changes nothing and, when it fits the
store, is a conflict, and every segment is the accepted submission with the
highest revision. -/
theorem transcript_converges (host : StoreHost) {start : MeetingsDb} {meetingId versionId : String}
    (distinct : start.transcript.DistinctSegments) {config : Config MeetingsDb Answer}
    (reaches : Reaches (step host) (forVersion meetingId versionId) start config)
    (consistent : Consistent (submittedSegments config.trace)) : (∀ now request failure,
      (serve host ⟨now, .transcript request⟩ config.state).1 = .error failure →
        (serve host ⟨now, .transcript request⟩ config.state).2 = config.state ∧
          (TranscriptRequestFits host now request config.state → failure = .conflict)) ∧
      ∀ highest, IsHighest (acceptedSegments config.trace) highest →
        (∀ stored ∈ start.transcript.segment highest.id,
          stored.revisionNumber < highest.revisionNumber.toNat) →
        Holds host meetingId config.state.transcript highest := by
  constructor
  · intro now request failure failed
    refine ⟨serve_of_error failed, fun fits => ?_⟩
    have distinctNow := (holdsNewest_of_reaches versionId distinct reaches).1
    obtain ⟨_, served, notApplied⟩ | ⟨_, served, -⟩ :=
      serve_cases host ⟨now, .transcript request⟩ config.state
    · rw [served] at failed
      cases failed
      exact fits.eq_conflict distinctNow notApplied
    · rw [served] at failed
      cases failed
  · intro highest isHighest newer
    have accepted : Consistent (acceptedSegments config.trace) :=
      ⟨fun first isFirst second isSecond => consistent.1 first
          (mem_submittedSegments_of_accepted isFirst) second
          (mem_submittedSegments_of_accepted isSecond),
        fun value member => consistent.2 value (mem_submittedSegments_of_accepted member)⟩
    have holds := (holdsNewest_of_reaches highest.id distinct reaches).2
    rw [HoldsNewest, newest?_eq_some_of_isHighest accepted isHighest newer] at holds
    exact holds

/-- A revised segment, then the text it revises, then the revision again. -/
def reorderedTranscripts : List Delivery :=
  [recordedTranscript (recordedSegment 2 "The sky is blue."),
    recordedTranscript (recordedSegment 1 "The sky is"),
    recordedTranscript (recordedSegment 2 "The sky is blue.")]

theorem transcript_converges_reordered :
    ∃ config, exec (step recordedHost) (Config.initial recordedDb) reorderedTranscripts =
        some config ∧
      Holds recordedHost recordedMeetingId config.state.transcript
        (recordedSegment 2 "The sky is blue.") := by
  obtain ⟨config, executed, consistent, highest⟩ :
      ∃ config ∈ exec (step recordedHost) (Config.initial recordedDb) reorderedTranscripts,
        Consistent (submittedSegments config.trace) ∧
          IsHighest (acceptedSegments config.trace) (recordedSegment 2 "The sky is blue.") := by
    decide +kernel
  refine ⟨config, executed, (@transcript_converges recordedHost recordedDb
    recordedMeetingId recordedVersionId nodup_nil config
    (reaches_of_exec reorderedTranscripts (by decide +kernel) executed) consistent).2 _ highest
    (by decide +kernel)⟩

/-- A newer text of the segment under another turn of the provider. -/
def movedSegment : MeetingTranscriptSegmentUpsertDto :=
  { recordedSegment 2 "The sea is blue." with providerTurnId := "turn-2" }

/-- A newer text of a speaker who is not stored. -/
def unattributedSegment : MeetingTranscriptSegmentUpsertDto :=
  { recordedSegment 3 "The sky is blue." with
    speakerId := some "7c9e6679-7425-40de-944b-e07fc1f90ae7" }

/-- The highest submission can be a conflict, which leaves an older one stored,
and a submission can fail without being a conflict. -/
theorem not_transcript_converges_moved :
    ∃ config, Reaches (step recordedHost) (forVersion recordedMeetingId recordedVersionId)
        recordedDb config ∧
      Consistent (submittedSegments config.trace) ∧
      IsHighest (submittedSegments config.trace) movedSegment ∧
      ¬Holds recordedHost recordedMeetingId config.state.transcript movedSegment ∧
      (serve recordedHost (recordedTranscript unattributedSegment) config.state).1 =
        .error .notFound := by
  obtain ⟨config, reaches, consistent, highest, stored, failed⟩ := exists_reaches_of_exec
    (step recordedHost) (forVersion recordedMeetingId recordedVersionId) recordedDb
    (fun config => Consistent (submittedSegments config.trace) ∧
      IsHighest (submittedSegments config.trace) movedSegment ∧
      (config.state.transcript.segment movedSegment.id).map
        TranscriptSegmentRow.revisionNumber = some 1 ∧
      (serve recordedHost (recordedTranscript unattributedSegment) config.state).1 =
        .error .notFound)
    [recordedTranscript (recordedSegment 1 "The sky is blue."), recordedTranscript movedSegment]
    (by decide +kernel) (by decide +kernel)
  refine ⟨config, reaches, consistent, highest, ?_, failed⟩
  rintro ⟨⟨row, present, content⟩, -⟩
  rw [present, Option.map_some, Option.some_inj, content.revisionNumber_eq] at stored
  exact absurd stored (by decide)

end Obelus.Meetings
