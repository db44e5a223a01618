import Obelus.Live.RefinementReconciler

/-!
# Changed numbers

The numbers of two texts are compared as the joined lists of their distinct tokens of more
than one code unit that bear a digit.  Other differences of the numbers show only in the
wording, and a claim whose time range no refined turn overlaps is not listed.
-/

namespace Obelus.Live.Refinement

open Obelus.Data List

/-- The tokens of a text that bear a digit, with repetitions. -/
def numberTokens (host : Host) (text : String) : List String :=
  (normalizedTokens host text).filter hasDigit

/-- The number tokens of more than one code unit, each at its first occurrence. -/
def lastingNumbers (host : Host) (text : String) : List String :=
  ((numberTokens host text).filter fun token => 1 < (CodeUnits.units token).length).eraseDups

theorem filter_eraseDups {α : Type} [DecidableEq α] (keep : α → Bool) (list : List α) :
    list.eraseDups.filter keep = (list.filter keep).eraseDups := by
  generalize lengthEq : list.length = length
  induction length using Nat.strong_induction_on generalizing list with
  | _ length ih =>
    cases list with
    | nil => rfl
    | cons first rest =>
      have shorter : (rest.filter fun other => !other == first).length < length := by
        rw [← lengthEq]
        exact Nat.lt_succ_of_le (length_filter_le _ _)
      have others := ih _ shorter (rest.filter fun other => !other == first) rfl
      rw [eraseDups_cons]
      cases keepsFirst : keep first with
      | true =>
        rw [filter_cons_of_pos keepsFirst, filter_cons_of_pos keepsFirst, eraseDups_cons, others]
        simp [Bool.and_comm]
      | false =>
        have distinct : ((rest.filter fun other => !other == first).filter keep) =
            rest.filter keep := by
          rw [filter_filter]
          apply filter_congr
          intro other _
          cases keepsOther : keep other with
          | false => rfl
          | true =>
            have differ : other ≠ first := by
              rintro rfl
              rw [keepsFirst] at keepsOther
              cases keepsOther
            simp [differ]
        rw [filter_cons_of_neg (by simp [keepsFirst]),
          filter_cons_of_neg (by simp [keepsFirst]), others, distinct]

/-- The numbers of a meaning are the lasting numbers of the text. -/
theorem filter_hasDigit_normalizedMeaning (host : Host) (text : String) :
    (normalizedMeaning host text).filter hasDigit = lastingNumbers host text := by
  rw [normalizedMeaning, filter_eraseDups, lastingNumbers, numberTokens, filter_filter,
    filter_filter]
  simp [Bool.and_comm]

section Joined

variable {host : Host} {text before after : String}

theorem mem_normalizedTokens_of_mem_lastingNumbers {token : String}
    (member : token ∈ lastingNumbers host text) : token ∈ normalizedTokens host text := by
  rw [lastingNumbers, mem_eraseDups] at member
  exact (mem_filter.mp (mem_filter.mp member).1).1

variable (bar : host.isLetterOrNumber '|' = false)

include bar

theorem separated_of_mem_normalizedTokens {token : String}
    (member : token ∈ normalizedTokens host text) : token ≠ "" ∧ '|' ∉ token.toList := by
  obtain ⟨word, inWords, rfl⟩ := mem_map.mp member
  obtain ⟨notEmpty, kept⟩ := isWord_of_mem_wordsAt inWords
  constructor
  · intro isEmpty
    have lists := congrArg String.toList isEmpty
    rw [String.toList_ofList] at lists
    exact notEmpty lists
  · rw [String.toList_ofList]
    intro inWord
    have isKept := kept '|' inWord
    simp [bar] at isKept

omit bar in
/-- Joined lists of nonempty tokens without the separator are equal only when the lists are. -/
theorem intercalate_bar_inj {left right : List String}
    (leftSeparated : ∀ token ∈ left, token ≠ "" ∧ '|' ∉ token.toList)
    (rightSeparated : ∀ token ∈ right, token ≠ "" ∧ '|' ∉ token.toList)
    (same : "|".intercalate left = "|".intercalate right) : left = right := by
  have notEmpty : ∀ {list : List String}, (∀ token ∈ list, token ≠ "" ∧ '|' ∉ token.toList) →
      list ≠ [] → "|".intercalate list ≠ "" := by
    intro list separated isCons isEmpty
    cases list with
    | nil => exact isCons rfl
    | cons first rest =>
      have lists := congrArg String.toList isEmpty
      rw [String.toList_intercalate, map_cons] at lists
      have firstEmpty : first.toList = [] := by
        cases rest with
        | nil => simpa using lists
        | cons next others =>
          rw [map_cons, intercalate_cons_cons] at lists
          exact (append_eq_nil_iff.mp (append_eq_nil_iff.mp lists).1).1
      exact (separated first mem_cons_self).1 (String.toList_inj.mp firstEmpty)
  have absent : ∀ {list : List String}, (∀ token ∈ list, token ≠ "" ∧ '|' ∉ token.toList) →
      ∀ characters ∈ list.map String.toList, '|' ∉ characters := by
    intro list separated characters member
    obtain ⟨token, inList, rfl⟩ := mem_map.mp member
    exact (separated token inList).2
  by_cases leftNil : left = []
  · by_contra differ
    refine notEmpty rightSeparated (fun rightNil => differ (leftNil.trans rightNil.symm)) ?_
    rw [← same, leftNil]
    rfl
  · have rightNil : right ≠ [] := by
      rintro rfl
      exact notEmpty leftSeparated leftNil same
    have lists := congrArg (fun joined => joined.toList.splitOn '|') same
    simp only [String.toList_intercalate] at lists
    rw [show "|".toList = ['|'] from rfl,
      splitOn_intercalate '|' (absent leftSeparated) (by simpa using leftNil),
      splitOn_intercalate '|' (absent rightSeparated) (by simpa using rightNil)] at lists
    exact map_injective_iff.mpr (fun _ _ => String.toList_inj.mp) lists

/-- The meaning changes when the lasting numbers differ, and otherwise by the wording. -/
theorem materiallyChangesMeaning_eq_true_iff : materiallyChangesMeaning host before after = true ↔
      lastingNumbers host before ≠ lastingNumbers host after ∨
        wordingDiffers host before after = true := by
  have separated : ∀ text, ∀ token ∈ lastingNumbers host text, token ≠ "" ∧ '|' ∉ token.toList :=
    fun text token member => separated_of_mem_normalizedTokens bar
      (mem_normalizedTokens_of_mem_lastingNumbers member)
  simp only [materiallyChangesMeaning, filter_hasDigit_normalizedMeaning]
  by_cases same : lastingNumbers host before = lastingNumbers host after
  · simp [same]
  · have differ : "|".intercalate (lastingNumbers host before) ≠
        "|".intercalate (lastingNumbers host after) := fun joined =>
      same (intercalate_bar_inj (separated before) (separated after) joined)
    rw [if_pos differ]
    simp [same]

end Joined

/-- What the refined segments that overlap a time range read. -/
def segmentsQuote (refinedSegments : List RefinedSegmentInput) (startMs endMs : Number) : String :=
  trim (" ".intercalate ((refinedSegments.filter fun segment =>
    0 < overlapMs segment.startMs segment.endMs startMs endMs).map RefinedSegmentInput.text))

/-- The refined turns read what their segments do. -/
theorem refinedQuote_mapIdx {turnAt : Nat → RefinedSegmentInput → TranscriptTurn}
    (starts : ∀ index segment, (turnAt index segment).startMs = segment.startMs)
    (ends : ∀ index segment, (turnAt index segment).endMs = segment.endMs)
    (texts : ∀ index segment, (turnAt index segment).text = segment.text)
    (refinedSegments : List RefinedSegmentInput) (startMs endMs : Number) :
    refinedQuote (refinedSegments.mapIdx turnAt) startMs endMs =
      segmentsQuote refinedSegments startMs endMs := by
  unfold refinedQuote segmentsQuote
  congr 2
  induction refinedSegments generalizing turnAt with
  | nil => rfl
  | cons segment rest ih =>
    have later := @ih (fun index => turnAt (index + 1)) (fun _ => starts _) (fun _ => ends _)
      (fun _ => texts _)
    rw [mapIdx_cons, filter_cons, filter_cons, starts, ends]
    split
    · rw [map_cons, map_cons, texts, later]
    · exact later

/-- The claim has a time range, a quote, and a text read in this range. -/
def Claim.Reads (claim : Claim) (read : Number → Number → String) (quote refined : String) :
    Prop :=
  ∃ version startMs endMs, claim.currentVersion = some version ∧
    version.startMs = some startMs ∧ version.endMs = some endMs ∧
      version.exactQuote = quote ∧ read startMs endMs = refined

theorem changedClaimId_eq_some_iff {host : Host} {turns : List TranscriptTurn} {claim : Claim}
    {claimId : String} : changedClaimId host turns claim = some claimId ↔ claim.id = claimId ∧
      ∃ quote refined, claim.Reads (refinedQuote turns) quote refined ∧ refined ≠ "" ∧
        materiallyChangesMeaning host quote refined = true := by
  unfold changedClaimId
  constructor
  · intro changed
    simp only [Option.bind_eq_bind, Option.bind_eq_some_iff] at changed
    obtain ⟨version, found, startMs, starts, endMs, ends, listed⟩ := changed
    split at listed
    · next changes =>
      exact ⟨Option.some.inj listed, version.exactQuote, refinedQuote turns startMs endMs,
        ⟨version, startMs, endMs, found, starts, ends, rfl, rfl⟩, changes.1, changes.2⟩
    · cases listed
  · rintro ⟨rfl, quote, refined, ⟨version, startMs, endMs, found, starts, ends, rfl, rfl⟩,
      notEmpty, changes⟩
    simp [found, starts, ends, notEmpty, changes]

/-- Every claim with a time range in which the turns read other numbers is listed. -/
def ListsChangedNumbers (host : Host) (claims : List Claim) (result : ReconciledRefinement) :
    Prop :=
  ∀ claim ∈ claims, ∀ quote refined, claim.Reads (refinedQuote result.turns) quote refined →
    numberTokens host quote ≠ numberTokens host refined →
      claim.id ∈ result.materiallyChangedClaimIds

/-- The difference of two texts shows in the lasting numbers or in the wording. -/
def ShowsChange (host : Host) (before after : String) : Prop :=
  lastingNumbers host before ≠ lastingNumbers host after ∨ wordingDiffers host before after = true

/-- For each claim with other numbers, the claim or one of its identifier has a time range in
which the segments read a text that shows a change. -/
def NumbersShow (host : Host) (claims : List Claim) (refinedSegments : List RefinedSegmentInput) :
    Prop :=
  ∀ claim ∈ claims, ∀ quote refined, claim.Reads (segmentsQuote refinedSegments) quote refined →
    numberTokens host quote ≠ numberTokens host refined →
      ∃ listed ∈ claims, listed.id = claim.id ∧ ∃ quote refined,
        listed.Reads (segmentsQuote refinedSegments) quote refined ∧ refined ≠ "" ∧
          ShowsChange host quote refined

/-- A changed number counts as a changed meaning exactly when it changes the lasting numbers or
the wording, and the claims with other numbers are listed exactly when such a change shows. -/
theorem changedNumber_counts_iff {host : Host} (bar : host.isLetterOrNumber '|' = false)
    (before after : String) (now : Number) (meetingId refinedVersionId : String)
    (liveTurns : List TranscriptTurn) (refinedSegments : List RefinedSegmentInput)
    (speakers : List Speaker) (claims : List Claim) :
    ((numberTokens host before ≠ numberTokens host after →
        materiallyChangesMeaning host before after = true) ↔
      (numberTokens host before ≠ numberTokens host after → ShowsChange host before after)) ∧
    (ListsChangedNumbers host claims (reconcileRefinement host now meetingId refinedVersionId
        liveTurns refinedSegments speakers claims) ↔
      NumbersShow host claims refinedSegments) := by
  constructor
  · exact imp_congr_right fun _ => materiallyChangesMeaning_eq_true_iff bar
  · have quotes : refinedQuote (reconcileRefinement host now meetingId refinedVersionId liveTurns
        refinedSegments speakers claims).turns = segmentsQuote refinedSegments := by
      funext startMs endMs
      exact refinedQuote_mapIdx (fun _ _ => rfl) (fun _ _ => rfl) (fun _ _ => rfl) _ _ _
    have listed_iff : ∀ claimId, claimId ∈ (reconcileRefinement host now meetingId
        refinedVersionId liveTurns refinedSegments speakers claims).materiallyChangedClaimIds ↔
          ∃ listed ∈ claims, listed.id = claimId ∧ ∃ quote refined,
            listed.Reads (segmentsQuote refinedSegments) quote refined ∧ refined ≠ "" ∧
              ShowsChange host quote refined := by
      intro claimId
      rw [← quotes]
      simp only [reconcileRefinement, mem_filterMap, changedClaimId_eq_some_iff,
        materiallyChangesMeaning_eq_true_iff bar, ShowsChange]
    simp only [ListsChangedNumbers, NumbersShow, listed_iff, quotes]

/-- A host that lowers a text character by character. -/
def loweringHost : Host :=
  { recordedHost with
    toLocaleLowerCase := fun text => String.ofList (text.toList.map Char.toLower) }

/-- A number of one digit changes. -/
theorem not_changedNumber_counts_oneDigit :
    ¬(numberTokens loweringHost "Prices rose by 5 percent." ≠
        numberTokens loweringHost "Prices rose by 7 percent." →
      materiallyChangesMeaning loweringHost "Prices rose by 5 percent."
        "Prices rose by 7 percent." = true) := by
  decide +kernel

def growthClaim : Claim where
  id := "claim-1"
  currentVersionId := "version-1"
  versions :=
    [{ id := "version-1"
       exactQuote := "It grew 92 percent."
       startMs := some 1000
       endMs := some 2000 }]

def growthSegment : RefinedSegmentInput where
  id := "segment-1"
  speakerCluster := "A"
  text := "It grew 71 percent."
  startMs := 900
  endMs := 2100
  words := []

/-- A number of two digits changes, and the claim is listed. -/
theorem changedNumber_counts_twoDigits :
    materiallyChangesMeaning loweringHost "It grew 92 percent." "It grew 71 percent." = true ∧
      ListsChangedNumbers loweringHost [growthClaim] (reconcileRefinement loweringHost 0
        "meeting-1" "refined-1" [] [growthSegment] [] [growthClaim]) := by
  have counts := changedNumber_counts_iff (show loweringHost.isLetterOrNumber '|' = false by decide)
    "It grew 92 percent." "It grew 71 percent." 0 "meeting-1" "refined-1" [] [growthSegment] []
    [growthClaim]
  constructor
  · exact counts.1.mpr (fun _ => .inl (by decide +kernel)) (by decide +kernel)
  · refine counts.2.mpr fun claim isIn _ _ _ _ => ⟨growthClaim, .head _, ?_, ?_⟩
    · rw [mem_singleton.mp isIn]
    · exact ⟨_, _, ⟨_, _, _, rfl, rfl, rfl, rfl, rfl⟩, by decide +kernel,
        .inl (by decide +kernel)⟩

end Obelus.Live.Refinement
