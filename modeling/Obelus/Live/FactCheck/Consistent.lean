import Mathlib.Tactic.NormNum
import Obelus.Data.Occurrence
import Obelus.Live.FactCheck.Assessment

/-!
# Consistent assessments

A finished assessment follows from its evidence.  The one part that fails is the confidence:
the quality of an item is read from the whole URL, so that a path with a segment such as
`mirror.gov` counts like a host.
-/

namespace Obelus.Live.Assessment

open Data List
open Data.CodeUnits (units)
open FactCheck (StoredLocalFactCheckJob)

/-- The host of a URL, without user and port. -/
def hostOf (url : CodeUnits) : CodeUnits :=
  match splitOnce (units "://") url with
  | none => []
  | some (_, rest) =>
    let authority := rest.takeWhile fun unit => !((units "/?#").contains unit)
    ((authority.splitOnP (· == 0x40)).getLastD []).takeWhile (· != 0x3A)

def UnderPublicDomain (url : CodeUnits) : Prop :=
  publicDomains.any (fun domain => (0x2E :: domain).isSuffixOf ((hostOf url).map CodeUnits.lower)) =
    true

instance : DecidablePred UnderPublicDomain := fun _ =>
  inferInstanceAs (Decidable (_ = true))

/-- A page extract whose host is under a public domain. -/
def PublicExtract (item : LocalEvidenceItem) : Prop :=
  item.retrievalKind = some .pageExtract ∧ UnderPublicDomain item.canonicalUrl

/-- A page extract that the pattern for URLs takes for a public one. -/
def LooksPublic (item : LocalEvidenceItem) : Prop :=
  item.retrievalKind = some .pageExtract ∧ isReference item.publisher = false ∧
    publicPattern item.canonicalUrl = true

/-- The conclusion of the assessment or of the draft cites an item of a kind. -/
def ConclusionCites (inventory : List LocalEvidenceItem) (ids : List CodeUnits)
    (kind : LocalEvidenceItem → Prop) : Prop :=
  ∃ item ∈ inventory, item.citationId ∈ ids ∧ kind item

def IsCitedBy (statements : List CitedStatement) (id : CodeUnits) : Prop :=
  ∃ statement ∈ statements, id ∈ statement.citationIds

/-- An assessment that follows from its evidence. -/
structure Consistent (inventory : List LocalEvidenceItem) (result : AssessmentResult) : Prop where
  confident : result.confidence = .high →
    ConclusionCites inventory result.conclusionCitationIds PublicExtract
  concludes : ∀ id ∈ result.conclusionCitationIds, id ∈ inventory.map LocalEvidenceItem.citationId
  citations : ∀ id, IsCitedBy (result.statements ++ result.supports ++ result.contradictions ++
    result.caveats ++ result.limitations) id → id ∈ inventory.map LocalEvidenceItem.citationId
  sources : ∀ id, id ∈ result.sources.map AssessedSource.citationId ↔
    id ∈ inventory.map LocalEvidenceItem.citationId ∧ IsCitedBy result.statements id
  distinct : (result.sources.map AssessedSource.citationId).Nodup
  supporting : ∀ source ∈ result.sources, source.stance = .supports ↔
    IsCitedBy result.supports source.citationId ∧
      ¬IsCitedBy result.contradictions source.citationId
  contradicting : ∀ source ∈ result.sources, source.stance = .contradicts ↔
    IsCitedBy result.contradictions source.citationId ∧
      ¬IsCitedBy result.supports source.citationId
  statements : ∀ statement, statement ∈ result.statements ↔
    statement = ⟨result.conclusion, result.conclusionCitationIds⟩ ∨
      statement ∈ result.supports ∨ statement ∈ result.contradictions ∨
      statement ∈ result.caveats ∨ statement ∈ result.limitations
  limitation : ∃ limitation, result.limitations = [limitation]

variable {items : List WebEvidenceItem} {unit : UInt16} {item : LocalEvidenceItem}
  {statements supporting contradicting : List CitedStatement} {statement : CitedStatement}
  {value : Option ModelValue} {allowed : List CodeUnits} {host : Host}
  {draft : LocalAssessmentDraft}

theorem id_of_mem_inventory {id : CodeUnits}
    (member : id ∈ (subscriptionInventory items).map LocalEvidenceItem.citationId) :
    ∃ index, id = citationIdAt index := by
  obtain ⟨item, isIn, rfl⟩ := mem_map.mp member
  obtain ⟨index, within, rfl⟩ := mem_mapIdx.mp isIn
  exact ⟨index, rfl⟩

theorem not_mem_citationIdAt {index : Nat} (notName : unit ∉ units "src_")
    (notDigit : ¬(0x30 ≤ unit ∧ unit ≤ 0x39)) : unit ∉ citationIdAt index := by
  rw [citationIdAt, mem_append]
  rintro (isName | isDigit)
  · exact notName isName
  · apply notDigit
    apply CodeUnits.between_of_mem_units_digits _ isDigit
    intro c member
    rw [Nat.toString_eq_ofList_toDigits, String.toList_ofList] at member
    exact Nat.isDigit_of_mem_toDigits (by decide) (by decide) member

theorem nul_not_mem_citationIdAt (index : Nat) : (0 : UInt16) ∉ citationIdAt index :=
  not_mem_citationIdAt (by decide) (by decide)

theorem comma_not_mem_citationIdAt (index : Nat) : (0x2C : UInt16) ∉ citationIdAt index :=
  not_mem_citationIdAt (by decide) (by decide)

/-- Every item of an inventory was found as a page or as a search result. -/
theorem isSome_retrievalKind (member : item ∈ subscriptionInventory items) :
    item.retrievalKind.isSome = true := by
  obtain ⟨index, within, rfl⟩ := mem_mapIdx.mp member
  rfl

/-- The ids are some ids of an inventory. -/
structure CitesInventory (ids allowed : List CodeUnits) : Prop where
  notEmpty : ids ≠ []
  allowed : ∀ id ∈ ids, id ∈ allowed

theorem not_mem_intercalate {separator : UInt16} (differ : unit ≠ separator)
    {parts : List CodeUnits} (absent : ∀ part ∈ parts, unit ∉ part) :
    unit ∉ [separator].intercalate parts := by
  induction parts with
  | nil => exact not_mem_nil
  | cons part rest ih =>
    cases rest with
    | nil =>
      rw [intercalate_singleton]
      exact absent part mem_cons_self
    | cons next rest =>
      rw [intercalate_cons_cons, append_assoc, mem_append, mem_append, mem_singleton]
      rintro (first | isSeparator | later)
      · exact absent part mem_cons_self first
      · exact differ isSeparator
      · exact ih (fun other member => absent other (mem_cons_of_mem _ member)) later

/-- The key of a statement tells its text and its citations. -/
theorem statementKey_inj {first second : CitedStatement}
    (citesFirst : CitesInventory first.citationIds
      ((subscriptionInventory items).map LocalEvidenceItem.citationId))
    (citesSecond : CitesInventory second.citationIds
      ((subscriptionInventory items).map LocalEvidenceItem.citationId))
    (same : statementKey first = statementKey second) : first = second := by
  have noNul : ∀ {ids : List CodeUnits}, CitesInventory ids
      ((subscriptionInventory items).map LocalEvidenceItem.citationId) →
        (0 : UInt16) ∉ [0x2C].intercalate ids := by
    intro ids citing
    apply not_mem_intercalate (by decide)
    intro id member
    obtain ⟨index, rfl⟩ := id_of_mem_inventory (citing.allowed id member)
    exact nul_not_mem_citationIdAt index
  have noComma : ∀ {ids : List CodeUnits}, CitesInventory ids
      ((subscriptionInventory items).map LocalEvidenceItem.citationId) →
        ∀ id ∈ ids, (0x2C : UInt16) ∉ id := by
    intro ids citing id member
    obtain ⟨index, rfl⟩ := id_of_mem_inventory (citing.allowed id member)
    exact comma_not_mem_citationIdAt index
  obtain ⟨sameText, sameIds⟩ := append_separator_inj (noNul citesFirst) (noNul citesSecond) same
  have split := congrArg (fun text : CodeUnits => text.splitOn 0x2C) sameIds
  rw [splitOn_intercalate _ (noComma citesFirst) citesFirst.notEmpty,
    splitOn_intercalate _ (noComma citesSecond) citesSecond.notEmpty] at split
  cases first
  simp only at sameText split
  rw [sameText, split]

/-- At most sixteen statements are all kept. -/
theorem mem_uniqueStatements_iff
    (citing : ∀ statement ∈ statements, CitesInventory statement.citationIds
      ((subscriptionInventory items).map LocalEvidenceItem.citationId))
    (few : statements.length ≤ 16) :
    statement ∈ uniqueStatements statements ↔ statement ∈ statements := by
  have all := JsMap.length_values_ofEntries_le
    (statements.map fun statement => (statementKey statement, statement))
  rw [length_map] at all
  rw [uniqueStatements, take_of_length_le (Nat.le_trans all few)]
  apply JsMap.mem_values_ofEntries_iff
  intro first isFirst second isSecond same
  exact statementKey_inj (citing first isFirst) (citing second isSecond) same

/-- What is known of a draft that was accepted. -/
structure WellCited (allowed : List CodeUnits) (draft : LocalAssessmentDraft) : Prop where
  concludes : CitesInventory draft.conclusionCitationIds allowed
  supports : ∀ statement ∈ draft.supports, CitesInventory statement.citationIds allowed
  contradictions : ∀ statement ∈ draft.contradictions, CitesInventory statement.citationIds allowed
  caveats : ∀ statement ∈ draft.caveats, CitesInventory statement.citationIds allowed
  few : draft.supports.length ≤ 4 ∧ draft.contradictions.length ≤ 4 ∧ draft.caveats.length ≤ 4

theorem citesInventory_of_citationIds {ids : List CodeUnits}
    (accepted : citationIds value allowed = .ok ids) : CitesInventory ids allowed := by
  unfold citationIds at accepted
  split at accepted
  · simp only [bind_eq_ok_iff, ensure_eq_ok_iff, pure_eq_ok_iff] at accepted
    obtain ⟨-, ⟨notEmpty, -⟩, -, ⟨-, all⟩, rfl⟩ := accepted
    constructor
    · intro isEmpty
      exact notEmpty (length_eq_zero_iff.mpr (map_eq_nil_iff.mp isEmpty))
    · intro id member
      exact contains_iff_mem.mp (all_eq_true.mp all id member)
  · cases accepted

theorem citesInventory_of_citedStatementDraft {entry : ModelValue}
    (accepted : citedStatementDraft host allowed entry = .ok statement) :
    CitesInventory statement.citationIds allowed := by
  simp only [citedStatementDraft, bind_eq_ok_iff, pure_eq_ok_iff] at accepted
  obtain ⟨ids, citing, -, -, rfl⟩ := accepted
  exact citesInventory_of_citationIds citing

theorem of_citedStatementDrafts
    (accepted : citedStatementDrafts host value allowed = .ok statements) :
    (∀ statement ∈ statements, CitesInventory statement.citationIds allowed) ∧
      statements.length ≤ 4 := by
  unfold citedStatementDrafts at accepted
  split at accepted
  · obtain rfl := pure_eq_ok_iff.mp accepted
    exact ⟨fun _ member => absurd member not_mem_nil, Nat.zero_le 4⟩
  · simp only [bind_eq_ok_iff, ensure_eq_ok_iff] at accepted
    obtain ⟨-, few, read⟩ := accepted
    constructor
    · intro statement member
      obtain ⟨entry, isRead⟩ := exists_of_mem_of_mapM_eq_ok read statement member
      exact citesInventory_of_citedStatementDraft isRead
    · rw [length_of_mapM_eq_ok read]
      exact few
  · cases accepted

theorem wellCited_of_validateAssessmentDraft {value : ModelValue}
    {inventory : List LocalEvidenceItem}
    (accepted : validateAssessmentDraft host value inventory = .ok draft) :
    inventory ≠ [] ∧ (inventory.map LocalEvidenceItem.citationId).Nodup ∧
      WellCited (inventory.map LocalEvidenceItem.citationId) draft := by
  simp only [validateAssessmentDraft, bind_eq_ok_iff, ensure_eq_ok_iff, pure_eq_ok_iff] at accepted
  obtain ⟨record, -, -, ⟨notEmpty, distinct⟩, conclusionIds, concludes, supports, areSupports,
    contradictions, areContradictions, caveats, areCaveats, verdict, -, confidence, -, -, -, rfl⟩ :=
    accepted
  obtain ⟨citesSupports, fewSupports⟩ := of_citedStatementDrafts areSupports
  obtain ⟨citesContradictions, fewContradictions⟩ := of_citedStatementDrafts areContradictions
  obtain ⟨citesCaveats, fewCaveats⟩ := of_citedStatementDrafts areCaveats
  refine ⟨?_, distinct, ?_⟩
  · rintro rfl
    exact notEmpty rfl
  · constructor
    · exact citesInventory_of_citationIds concludes
    · exact citesSupports
    · exact citesContradictions
    · exact citesCaveats
    · exact ⟨fewSupports, fewContradictions, fewCaveats⟩

theorem le_evidenceQuality_iff (found : item.retrievalKind.isSome = true) :
    4 / 5 ≤ evidenceQuality item ↔ LooksPublic item := by
  obtain ⟨kind, isKind⟩ := Option.isSome_iff_exists.mp found
  unfold evidenceQuality LooksPublic
  rw [isKind]
  cases isReference item.publisher
  · cases publicPattern item.canonicalUrl
    · cases kind <;> norm_num
    · cases kind with
      | searchSnippet => norm_num [show ¬RetrievalKind.searchSnippet = .pageExtract by decide]
      | pageExtract => norm_num [show ¬RetrievalKind.pageExtract = .searchSnippet by decide]
  · norm_num

theorem le_foldl_max_iff {α : Type} {quality : α → ℚ} {threshold maximum : ℚ} {elements : List α} :
    threshold ≤ elements.foldl (fun maximum element => max maximum (quality element)) maximum ↔
      threshold ≤ maximum ∨ ∃ element ∈ elements, threshold ≤ quality element := by
  induction elements generalizing maximum with
  | nil => simp
  | cons element rest ih =>
    rw [foldl_cons, ih]
    simp [or_assoc]

/-- Full confidence stays where the conclusion cites an item that looks public. -/
theorem confidence_calibrate_eq_high_iff :
    (calibrateSubscriptionConfidence draft (subscriptionInventory items)).confidence = .high ↔
      draft.confidence = .high ∧
        ConclusionCites (subscriptionInventory items) draft.conclusionCitationIds LooksPublic := by
  unfold calibrateSubscriptionConfidence
  by_cases isHigh : draft.confidence = .high
  · rw [if_neg (not_not_intro isHigh)]
    simp only [le_foldl_max_iff]
    have strong : ((4 / 5 : ℚ) ≤ 0 ∨ ∃ item ∈ (subscriptionInventory items).filter
        (cites draft.conclusionCitationIds), 4 / 5 ≤ evidenceQuality item) ↔
        ConclusionCites (subscriptionInventory items) draft.conclusionCitationIds LooksPublic := by
      constructor
      · rintro (negative | ⟨item, member, strong⟩)
        · norm_num at negative
        · obtain ⟨isIn, isCited⟩ := mem_filter.mp member
          exact ⟨item, isIn, contains_iff_mem.mp isCited,
            (le_evidenceQuality_iff (isSome_retrievalKind isIn)).mp strong⟩
      · rintro ⟨item, isIn, isCited, looks⟩
        exact Or.inr ⟨item, mem_filter.mpr ⟨isIn, contains_iff_mem.mpr isCited⟩,
          (le_evidenceQuality_iff (isSome_retrievalKind isIn)).mpr looks⟩
    rw [← strong]
    split
    · next isStrong => exact ⟨fun _ => ⟨isHigh, isStrong⟩, fun _ => isHigh⟩
    · next weak =>
      constructor
      · intro isMedium
        cases isMedium
      · rintro ⟨-, isStrong⟩
        exact absurd isStrong weak
  · rw [if_pos isHigh]
    constructor
    · exact fun high => absurd high isHigh
    · exact fun high => absurd high.1 isHigh

/-- The calibration changes the confidence only. -/
theorem calibrate_eq (draft : LocalAssessmentDraft) (inventory : List LocalEvidenceItem) :
    ∃ confidence, calibrateSubscriptionConfidence draft inventory =
      { draft with confidence := confidence } := by
  unfold calibrateSubscriptionConfidence
  split
  · exact ⟨_, rfl⟩
  · simp only
    split
    · exact ⟨_, rfl⟩
    · exact ⟨_, rfl⟩

theorem mem_citedIds_iff {id : CodeUnits} : id ∈ citedIds statements ↔ IsCitedBy statements id :=
  mem_flatMap

theorem stanceOf_eq_supports_iff {id : CodeUnits} :
    stanceOf (citedIds supporting) (citedIds contradicting) id = .supports ↔
      IsCitedBy supporting id ∧ ¬IsCitedBy contradicting id := by
  rw [← mem_citedIds_iff, ← mem_citedIds_iff, ← contains_iff_mem, ← contains_iff_mem, stanceOf]
  cases (citedIds supporting).contains id <;> cases (citedIds contradicting).contains id <;> simp

theorem stanceOf_eq_contradicts_iff {id : CodeUnits} :
    stanceOf (citedIds supporting) (citedIds contradicting) id = .contradicts ↔
      IsCitedBy contradicting id ∧ ¬IsCitedBy supporting id := by
  rw [← mem_citedIds_iff, ← mem_citedIds_iff, ← contains_iff_mem, ← contains_iff_mem, stanceOf]
  cases (citedIds supporting).contains id <;> cases (citedIds contradicting).contains id <;> simp

section Finished

variable {ρ : Type} {host : Host} {job : StoredLocalFactCheckJob ρ} {items : List WebEvidenceItem}
  {draft : LocalAssessmentDraft} {provenance : AssessmentProvenance} {completedAtMs : Nat}

/-- The statements of an assessment, as they are before equal ones are merged. -/
theorem mem_statements_iff (notEmpty : subscriptionInventory items ≠ [])
    (citing : WellCited ((subscriptionInventory items).map LocalEvidenceItem.citationId) draft)
    (statement : CitedStatement) :
    statement ∈ (finishAssessment host job (subscriptionInventory items) draft provenance
        completedAtMs).statements ↔
      statement = ⟨draft.conclusion, draft.conclusionCitationIds⟩ ∨ statement ∈ draft.supports ∨
        statement ∈ draft.contradictions ∨ statement ∈ draft.caveats ∨
        statement ∈ (finishAssessment host job (subscriptionInventory items) draft provenance
          completedAtMs).limitations := by
  simp only [finishAssessment]
  rw [mem_uniqueStatements_iff]
  · simp
  · intro other member
    simp only [mem_cons, mem_append, not_mem_nil, or_false] at member
    rcases member with rfl | ((isSupport | isContradiction) | isCaveat) | rfl
    · exact citing.concludes
    · exact citing.supports other isSupport
    · exact citing.contradictions other isContradiction
    · exact citing.caveats other isCaveat
    · exact ⟨fun isEmpty => notEmpty (map_eq_nil_iff.mp isEmpty), fun _ isIn => isIn⟩
  · obtain ⟨fewSupports, fewContradictions, fewCaveats⟩ := citing.few
    simp only [length_cons, length_append, length_nil]
    omega

/-- The sources are the items that are cited. -/
theorem mem_sources_iff {source : AssessedSource} :
    source ∈ (finishAssessment host job (subscriptionInventory items) draft provenance
        completedAtMs).sources ↔
      ∃ item ∈ subscriptionInventory items,
        IsCitedBy (finishAssessment host job (subscriptionInventory items) draft provenance
          completedAtMs).statements item.citationId ∧
        source =
          { citationId := item.citationId
            stance := stanceOf (citedIds draft.supports) (citedIds draft.contradictions)
              item.citationId
            qualityScore := evidenceQuality item
            qualityRationale := evidenceQualityRationale item } := by
  simp only [finishAssessment, mem_map, mem_filter, cites, contains_iff_mem, mem_citedIds_iff]
  constructor
  · rintro ⟨item, ⟨isIn, isCited⟩, rfl⟩
    exact ⟨item, isIn, isCited, rfl⟩
  · rintro ⟨item, isIn, isCited, rfl⟩
    exact ⟨item, ⟨isIn, isCited⟩, rfl⟩

/-- What is not about the confidence follows from the checks of the answer. -/
theorem consistent_of_wellCited (notEmpty : subscriptionInventory items ≠ [])
    (distinct : ((subscriptionInventory items).map LocalEvidenceItem.citationId).Nodup)
    (citing : WellCited ((subscriptionInventory items).map LocalEvidenceItem.citationId) draft)
    (confident : draft.confidence = .high →
      ConclusionCites (subscriptionInventory items) draft.conclusionCitationIds PublicExtract) :
    Consistent (subscriptionInventory items)
      (finishAssessment host job (subscriptionInventory items) draft provenance completedAtMs) := by
  have statements :=
    @mem_statements_iff ρ host job items draft provenance completedAtMs notEmpty citing
  have limits : ∀ statement ∈ (finishAssessment host job (subscriptionInventory items) draft
      provenance completedAtMs).limitations, ∀ id ∈ statement.citationIds,
        id ∈ (subscriptionInventory items).map LocalEvidenceItem.citationId := by
    intro statement member id isCited
    obtain rfl := mem_singleton.mp member
    exact isCited
  constructor
  · exact confident
  · exact citing.concludes.allowed
  · rintro id ⟨statement, member, isCited⟩
    have isStatement := member
    simp only [mem_append, statements] at isStatement
    rcases isStatement with ((((rfl | isSupport | isContradiction | isCaveat | isLimit) |
      isSupport) | isContradiction) | isCaveat) | isLimit
    · exact citing.concludes.allowed id isCited
    · exact (citing.supports statement isSupport).allowed id isCited
    · exact (citing.contradictions statement isContradiction).allowed id isCited
    · exact (citing.caveats statement isCaveat).allowed id isCited
    · exact limits statement isLimit id isCited
    · exact (citing.supports statement isSupport).allowed id isCited
    · exact (citing.contradictions statement isContradiction).allowed id isCited
    · exact (citing.caveats statement isCaveat).allowed id isCited
    · exact limits statement isLimit id isCited
  · intro id
    constructor
    · intro member
      obtain ⟨source, isSource, rfl⟩ := mem_map.mp member
      obtain ⟨item, isIn, isCited, rfl⟩ := mem_sources_iff.mp isSource
      exact ⟨mem_map_of_mem isIn, isCited⟩
    · rintro ⟨member, isCited⟩
      obtain ⟨item, isIn, rfl⟩ := mem_map.mp member
      exact mem_map.mpr ⟨_, mem_sources_iff.mpr ⟨item, isIn, isCited, rfl⟩, rfl⟩
  · simp only [finishAssessment, map_map]
    exact (filter_sublist.map LocalEvidenceItem.citationId).nodup distinct
  · intro source member
    obtain ⟨item, -, -, rfl⟩ := mem_sources_iff.mp member
    exact stanceOf_eq_supports_iff
  · intro source member
    obtain ⟨item, -, -, rfl⟩ := mem_sources_iff.mp member
    exact stanceOf_eq_contradicts_iff
  · exact statements
  · exact ⟨_, rfl⟩

/-- An assessment is consistent with its evidence if and only if full confidence that rests on
a page with a public URL also rests on one of a public host. -/
theorem consistent_iff {value : ModelValue}
    (accepted : validateAssessmentDraft host value (subscriptionInventory items) = .ok draft) :
    Consistent (subscriptionInventory items)
        (finishAssessment host job (subscriptionInventory items)
          (calibrateSubscriptionConfidence draft (subscriptionInventory items)) provenance
          completedAtMs) ↔
      (draft.confidence = .high →
        ConclusionCites (subscriptionInventory items) draft.conclusionCitationIds LooksPublic →
          ConclusionCites (subscriptionInventory items) draft.conclusionCitationIds
            PublicExtract) := by
  obtain ⟨notEmpty, distinct, citing⟩ := wellCited_of_validateAssessmentDraft accepted
  have isHigh := @confidence_calibrate_eq_high_iff items draft
  obtain ⟨confidence, isDraft⟩ := calibrate_eq draft (subscriptionInventory items)
  rw [isDraft] at isHigh ⊢
  constructor
  · intro consistent high looks
    exact consistent.confident (isHigh.mpr ⟨high, looks⟩)
  · intro extracts
    apply consistent_of_wellCited notEmpty distinct
    · exact ⟨citing.concludes, citing.supports, citing.contradictions, citing.caveats, citing.few⟩
    · intro high
      obtain ⟨wasHigh, looks⟩ := isHigh.mp high
      exact extracts wasHigh looks

end Finished

def asIs : Host where
  nfkc := id
  toISOString _ := []

/-- A page about the Earth. -/
def pageAt (url : String) : WebEvidenceItem where
  url := units url
  canonicalUrl := units url
  publisher := units "A publisher"
  title := units "Earth"
  accessedAt := units "2026-01-01T00:00:00.000Z"
  excerpt := units "Earth orbits the Sun."
  retrievalKind := .pageExtract

def confidentAnswer : ModelValue :=
  .object [("verdict", .string (units "Supported")), ("confidence", .string (units "High")),
    ("conclusion", .string (units "Earth orbits the Sun.")),
    ("conclusionCitationIds", .array [.string (units "src_1")])]

def confidentDraft : LocalAssessmentDraft where
  verdict := .supported
  confidence := .high
  conclusion := units "Earth orbits the Sun."
  conclusionCitationIds := [units "src_1"]
  supports := []
  contradictions := []
  caveats := []

def orbitJob : StoredLocalFactCheckJob Unit where
  stage := .quick
  request :=
    { meetingId := "meeting", claimId := "claim", claimVersionId := "version",
      idempotencyKey := "key", exactQuote := "Earth orbits the Sun.",
      normalizedClaim := "Earth orbits the Sun.", origin := .manual }

def subscription : AssessmentProvenance where
  provider := .chatgptCodex
  model := units "model"
  isLocal := false
  evidenceScope := units "scope"

/-- Full confidence that rests on a page of a public host. -/
theorem consistent_publicHost :
    Consistent (subscriptionInventory [pageAt "https://science.nasa.gov/earth"])
      (finishAssessment asIs orbitJob
        (subscriptionInventory [pageAt "https://science.nasa.gov/earth"])
        (calibrateSubscriptionConfidence confidentDraft
          (subscriptionInventory [pageAt "https://science.nasa.gov/earth"])) subscription 0) := by
  have accepted : validateAssessmentDraft asIs confidentAnswer
      (subscriptionInventory [pageAt "https://science.nasa.gov/earth"]) = .ok confidentDraft := by
    rfl
  rw [consistent_iff accepted]
  intro _ _
  exact ⟨_, mem_cons_self, by decide, rfl, by decide⟩

/-- The answer is accepted, and it stays at full confidence for a page of a private host. -/
theorem not_consistent_privateHost : validateAssessmentDraft asIs confidentAnswer
        (subscriptionInventory [pageAt "https://example.com/mirror.gov/earth"]) =
      .ok confidentDraft ∧
    ¬Consistent (subscriptionInventory [pageAt "https://example.com/mirror.gov/earth"])
      (finishAssessment asIs orbitJob
        (subscriptionInventory [pageAt "https://example.com/mirror.gov/earth"])
        (calibrateSubscriptionConfidence confidentDraft
          (subscriptionInventory [pageAt "https://example.com/mirror.gov/earth"]))
        subscription 0) := by
  constructor
  · rfl
  · intro consistent
    have looks : ConclusionCites
        (subscriptionInventory [pageAt "https://example.com/mirror.gov/earth"])
        confidentDraft.conclusionCitationIds LooksPublic :=
      ⟨_, mem_cons_self, by decide, rfl, by decide, by decide⟩
    have isHigh := confidence_calibrate_eq_high_iff.mpr ⟨rfl, looks⟩
    obtain ⟨item, isIn, -, -, isPublic⟩ := consistent.confident isHigh
    obtain rfl := mem_singleton.mp isIn
    exact absurd isPublic (by decide)

end Obelus.Live.Assessment
