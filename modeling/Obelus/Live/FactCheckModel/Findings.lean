import Mathlib.Algebra.Order.Field.Rat
import Mathlib.Data.List.Dedup
import Obelus.Live.FactCheckModel.Draft

/-!
# Assessments

The policy that makes an assessment of a draft: what its sections and stances say of the
claim, and how far the evidence that they cite is to be trusted.
-/

namespace Obelus.Live.FactCheckModel

def schemaVersion : String := "2.0.0"
def policyVersion : String := "obelus-assessment-policy/2.0.0"

/-- The texts by which an item is recognized, in lower case. -/
def EvidenceInput.identity (item : EvidenceInput) : List Char :=
  (lowercase (item.publisher ++ " " ++ item.url.getD "" ++ " " ++
    item.canonicalUrl.getD "")).toList

def EvidenceInput.mentions (item : EvidenceInput) (text : String) : Bool :=
  decide (text.toList <:+: item.identity)

def authoritativeTypes : List SourceType :=
  [.government, .academic, .official, .primary]

def authoritativeSourceSignal (item : EvidenceInput) : Bool :=
  item.sourceType.any (authoritativeTypes.contains ·) ||
    (item.mentions "nasa" || item.mentions ".gov" || item.mentions ".edu" ||
      item.mentions "government")

def inferSourceType (item : EvidenceInput) : SourceType :=
  if item.mentions "nasa" || item.mentions ".gov" || item.mentions "government" then .government
  else if item.mentions ".edu" || item.mentions "university" then .academic
  else .unknown

/-- The item of a citation; the last one, should there be several. -/
def evidenceById (evidence : List EvidenceInput) (id : String) : Option EvidenceInput :=
  evidence.reverse.find? fun item => item.citationId = id

def normalizeAuthority (evidence : List EvidenceInput) (source : SourceAssessment) :
    SourceAssessment :=
  if source.authority = .authoritative ∧
      (evidenceById evidence source.citationId).any (!authoritativeSourceSignal ·) then
    { source with authority := .credible }
  else source

def normalizeSourceAuthority (sources : List SourceAssessment) (evidence : List EvidenceInput) :
    List SourceAssessment :=
  sources.map (normalizeAuthority evidence)

def citedIds (statements : List CitedStatement) : List String :=
  statements.flatMap CitedStatement.citationIds

def decisiveCitationIds (draft : Draft) : List String :=
  citedIds (draft.supports ++ draft.contradictions ++ draft.caveats)

def draftEvidenceRelation (draft : Draft) (outputConstraint : ClaimOutputConstraint) :
    EvidenceRelation :=
  let supports := !draft.supports.isEmpty
  let contradicts := !draft.contradictions.isEmpty
  let qualifies := !draft.caveats.isEmpty
  let caveatCitations := citedIds draft.caveats
  let explicitlyConflicts := draft.sources.any fun source =>
    source.stance == .conflicts && caveatCitations.contains source.citationId
  if (supports && contradicts) || explicitlyConflicts then .conflicts
  else if qualifies ||
      (outputConstraint == .ambiguousOrganizationSize && (supports || contradicts)) then .qualified
  else if supports then .supports
  else if contradicts then .contradicts
  else .none

def findingForEvidenceRelation : EvidenceRelation → Resolution × Finding
  | .supports => (.resolved, .supported)
  | .contradicts => (.resolved, .disputed)
  | .qualified | .conflicts => (.unresolved, .needsContext)
  | .none => (.unresolved, .unverified)

/-- A page extract that answers the claim directly. -/
def isDirectAuthoritativeExtract (evidence : List EvidenceInput) (source : SourceAssessment) :
    Bool :=
  (evidenceById evidence source.citationId).any fun item =>
    item.retrievalKind == .pageExtract && source.authority == .authoritative &&
      source.directness == .direct && source.timeScopeMatch && decide (4 / 5 ≤ source.qualityScore)

def canonicalConfidence (draft : Draft) (evidence : List EvidenceInput)
    (relation : EvidenceRelation) : CanonicalConfidence :=
  if relation = .none then .low
  else
    let decisive := decisiveCitationIds draft
    let assessed := draft.sources.filter fun source =>
      decisive.contains source.citationId && source.addressesClaim
    if !(assessed.any fun source => decide (9 / 20 ≤ source.qualityScore)) ||
        draft.confidence == .low then .low
    else if draft.confidence == .high && assessed.any (isDirectAuthoritativeExtract evidence) then
      .high
    else .medium

def ModelStage.assessed : ModelStage → AssessmentStage
  | .quick => .preliminary
  | .deep => .deep

/-- An item with what is known about it when the assessment is completed. -/
def EvidenceInput.inventoried (completedAt : String) (stage : AssessmentStage)
    (item : EvidenceInput) : EvidenceInput :=
  let item := { item with canonicalUrl := item.canonicalUrl.or item.url }
  let item := { item with accessedAt := some (item.accessedAt.getD completedAt) }
  { item with
    sourceType := some (item.sourceType.getD (inferSourceType item))
    retrievalStage := some stage }

def resolveCanonicalAssessment (completedAt : String) (draft : Draft) (request : ModelRequest)
    (outputConstraint : ClaimOutputConstraint) : CanonicalAssessment :=
  let draft := { draft with sources := normalizeSourceAuthority draft.sources request.evidence }
  let evidenceRelation := draftEvidenceRelation draft outputConstraint
  let resolution := (findingForEvidenceRelation evidenceRelation).1
  let finding := (findingForEvidenceRelation evidenceRelation).2
  let stage := request.stage.assessed
  { schemaVersion, policyVersion, stage, resolution, evidenceRelation, finding
    confidence := canonicalConfidence draft request.evidence evidenceRelation
    conclusion := draft.conclusion
    conclusionCitationIds := draft.conclusionCitationIds
    statements := draft.statements
    supports := draft.supports
    contradictions := draft.contradictions
    caveats := draft.caveats
    limitations := draft.limitations
    sources := draft.sources
    changeExplanation := draft.changeExplanation
    originalQuote := request.exactQuote
    normalizedClaim := request.normalizedClaim
    inventory := request.evidence.map (EvidenceInput.inventoried completedAt stage)
    completedAt
    aiGenerated := true }

/-!
## The finding follows from the evidence

What the sections of an accepted draft and the sources that they cite have to do with
the finding and the confidence of the assessment that is made of it.
-/

open List
open Data (bind_eq_ok_iff ensure_eq_ok_iff forM_eq_ok_iff splitOnce)

/-- The sources that the statements cite are of admitted stances. -/
def CitesStances (sources : List SourceAssessment) (admits : EvidenceStance → Bool)
    (statements : List CitedStatement) : Prop :=
  ∀ id ∈ citedIds statements, ∃ source ∈ sources, source.citationId = id ∧
    admits source.stance = true

variable {sources : List SourceAssessment} {admits : EvidenceStance → Bool}
  {statements : List CitedStatement} {allowed : List String} {stage : ModelStage} {draft : Draft}

theorem citesStances_of_validateSources (valid : validateSources sources admits statements = .ok ⟨⟩)
    : CitesStances sources admits statements := by
  intro id cited
  obtain ⟨statement, isStatement, isId⟩ := mem_flatMap.mp cited
  have checked := forM_eq_ok_iff.mp (forM_eq_ok_iff.mp valid statement isStatement) id isId
  cases found : sourceById sources id with
  | none =>
    rw [found] at checked
    cases checked
  | some source =>
    simp only [found, ensure_eq_ok_iff] at checked
    have isSource := find?_some found
    exact ⟨source, mem_of_find?_eq_some found, by simpa using isSource, checked⟩

/-- What the checks of a draft say of its citations. -/
structure WellCited (allowed : List String) (draft : Draft) : Prop where
  distinct : (draft.sources.map SourceAssessment.citationId).Nodup
  allowed : ∀ source ∈ draft.sources, source.citationId ∈ allowed
  conclusion : ∀ id ∈ draft.conclusionCitationIds, ∃ source ∈ draft.sources, source.citationId = id
  statements : CitesStances draft.sources (fun _ => true) draft.statements
  supports : CitesStances draft.sources (· == .supports) draft.supports
  contradictions : CitesStances draft.sources (· == .contradicts) draft.contradictions
  caveats : CitesStances draft.sources (fun stance => stance == .qualifies || stance == .conflicts)
    draft.caveats
  limitations : CitesStances draft.sources (fun _ => true) draft.limitations

theorem wellCited_of_validateDraft (valid : validateDraft allowed stage draft = .ok ⟨⟩) :
    WellCited allowed draft := by
  simp only [validateDraft, bind_eq_ok_iff, ensure_eq_ok_iff] at valid
  obtain ⟨_, -, _, -, _, -, _, -, counts, -, _, -, _, -, _, ⟨sources, distinct⟩, _, -, _, cited,
    _, statements, _, supports, _, contradictions, _, caveats, _, limitations, -⟩ := valid
  constructor
  · exact distinct
  · exact fun source member => (sources source member).1
  · intro id member
    obtain ⟨source, found⟩ := Option.isSome_iff_exists.mp (cited id member)
    exact ⟨source, mem_of_find?_eq_some found, by simpa using find?_some found⟩
  · exact citesStances_of_validateSources statements
  · exact citesStances_of_validateSources supports
  · exact citesStances_of_validateSources contradictions
  · exact citesStances_of_validateSources caveats
  · exact citesStances_of_validateSources limitations

theorem wellCited_of_parseDraft {message : List ReplyContent}
    (accepted : parseDraft message allowed stage = .ok draft) : WellCited allowed draft := by
  simp only [parseDraft, bind_eq_ok_iff, Data.pure_eq_ok_iff] at accepted
  obtain ⟨_, -, _, -, _, valid, rfl⟩ := accepted
  exact wellCited_of_validateDraft valid

/-- Only the authority of a source is changed. -/
theorem normalizeAuthority_fields (evidence : List EvidenceInput) (source : SourceAssessment) :
    (normalizeAuthority evidence source).citationId = source.citationId ∧
      (normalizeAuthority evidence source).stance = source.stance := by
  unfold normalizeAuthority
  split <;> exact ⟨rfl, rfl⟩

theorem CitesStances.normalized (cites : CitesStances sources admits statements)
    (evidence : List EvidenceInput) :
    CitesStances (normalizeSourceAuthority sources evidence) admits statements := by
  intro id cited
  obtain ⟨source, member, isId, admitted⟩ := cites id cited
  obtain ⟨sameId, sameStance⟩ := normalizeAuthority_fields evidence source
  refine ⟨normalizeAuthority evidence source, mem_map_of_mem member, sameId.trans isId, ?_⟩
  rw [sameStance]
  exact admitted

section Relation

variable {draft : Draft} {outputConstraint : ClaimOutputConstraint}

/-- Without a caveat no source conflicts explicitly. -/
theorem explicit_eq_false (sources : List SourceAssessment) :
    (sources.any fun source => source.stance == .conflicts &&
      (citedIds []).contains source.citationId) = false := by
  simp [citedIds]

theorem relation_eq_none_iff : draftEvidenceRelation draft outputConstraint = .none ↔
    draft.supports = [] ∧ draft.contradictions = [] ∧ draft.caveats = [] := by
  by_cases caveats : draft.caveats = []
  · simp only [draftEvidenceRelation, caveats, explicit_eq_false]
    cases draft.supports <;> cases draft.contradictions <;> cases outputConstraint <;> simp
  · have qualifies : draft.caveats.isEmpty = false := isEmpty_eq_false_iff.mpr caveats
    simp only [draftEvidenceRelation, qualifies, caveats]
    split <;> simp

theorem of_relation_supports (supports : draftEvidenceRelation draft outputConstraint = .supports) :
    draft.supports ≠ [] ∧ draft.contradictions = [] ∧ draft.caveats = [] := by
  by_cases caveats : draft.caveats = []
  · revert supports
    simp only [draftEvidenceRelation, caveats, explicit_eq_false]
    cases draft.supports <;> cases draft.contradictions <;> cases outputConstraint <;> simp
  · have qualifies : draft.caveats.isEmpty = false := isEmpty_eq_false_iff.mpr caveats
    simp only [draftEvidenceRelation, qualifies] at supports
    split at supports <;> cases supports

theorem of_relation_contradicts
    (contradicts : draftEvidenceRelation draft outputConstraint = .contradicts) :
    draft.supports = [] ∧ draft.contradictions ≠ [] ∧ draft.caveats = [] := by
  by_cases caveats : draft.caveats = []
  · revert contradicts
    simp only [draftEvidenceRelation, caveats, explicit_eq_false]
    cases draft.supports <;> cases draft.contradictions <;> cases outputConstraint <;> simp
  · have qualifies : draft.caveats.isEmpty = false := isEmpty_eq_false_iff.mpr caveats
    simp only [draftEvidenceRelation, qualifies] at contradicts
    split at contradicts <;> cases contradicts

variable {relation : EvidenceRelation}

theorem finding_eq_unverified_iff :
    (findingForEvidenceRelation relation).2 = .unverified ↔ relation = .none := by
  cases relation <;> simp [findingForEvidenceRelation]

theorem resolved_cases (resolved : (findingForEvidenceRelation relation).1 = .resolved) :
    (relation = .supports ∧ (findingForEvidenceRelation relation).2 = .supported) ∨
      (relation = .contradicts ∧ (findingForEvidenceRelation relation).2 = .disputed) := by
  cases relation <;> simp_all [findingForEvidenceRelation]

end Relation

def CanonicalConfidence.rank : CanonicalConfidence → Nat
  | .low => 0
  | .medium => 1
  | .high => 2

section Confidence

variable {draft : Draft} {evidence : List EvidenceInput} {relation : EvidenceRelation}

theorem canonicalConfidence_le :
    (canonicalConfidence draft evidence relation).rank ≤ draft.confidence.rank := by
  simp only [canonicalConfidence]
  cases draft.confidence <;> split_ifs <;> simp_all [CanonicalConfidence.rank]

/-- Full confidence rests on a source that a section cites. -/
theorem exists_source_of_high
    (high : canonicalConfidence draft evidence relation = .high) :
    ∃ source ∈ draft.sources, source.citationId ∈ decisiveCitationIds draft ∧
      source.addressesClaim = true ∧ isDirectAuthoritativeExtract evidence source = true := by
  simp only [canonicalConfidence] at high
  split_ifs at high with none low both
  simp only [Bool.and_eq_true, any_eq_true, mem_filter, contains_iff_mem] at both
  obtain ⟨-, source, ⟨member, decisive, addresses⟩, extract⟩ := both
  exact ⟨source, member, decisive, addresses, extract⟩

/-- A source that stays authoritative is one by the type or by the texts of its item. -/
theorem signal_of_authoritative {source : SourceAssessment} {item : EvidenceInput}
    (found : evidenceById evidence source.citationId = some item)
    (authoritative : (normalizeAuthority evidence source).authority = .authoritative) :
    authoritativeSourceSignal item = true := by
  by_contra noSignal
  rw [Bool.not_eq_true] at noSignal
  have lowered : (evidenceById evidence source.citationId).any (!authoritativeSourceSignal ·) =
      true := by
    simp [found, noSignal]
  unfold normalizeAuthority at authoritative
  split at authoritative
  · cases authoritative
  · next stays => exact stays ⟨authoritative, lowered⟩

end Confidence

/-- The labels of the host of a URL, in lower case. -/
def hostLabels (url : String) : List String :=
  match splitOnce "://".toList url.toList with
  | none => []
  | some (_, rest) =>
    let authority := rest.takeWhile fun c => !(['/', '?', '#'].contains c)
    let host := (authority.splitOnP (· == '@')).getLastD []
    ((host.takeWhile (· != ':')).splitOnP (· == '.')).map fun label =>
      lowercase (String.ofList label)

def publicLabels : List String :=
  ["gov", "edu"]

/-- A public label at the end of the host, or before a country label. -/
def endsPublic (labels : List String) : Bool :=
  match labels.reverse with
  | [] => false
  | [last] => publicLabels.contains last
  | last :: before :: _ =>
    publicLabels.contains last || (last.length == 2 && publicLabels.contains before)

/-- An item that its type, the words of its publisher or the host of one of its URLs make an
authority. -/
def NamedAuthority (item : EvidenceInput) : Prop :=
  (∃ sourceType ∈ item.sourceType, sourceType ∈ authoritativeTypes) ∨
    "nasa" ∈ wordsOf item.publisher ∨ "government" ∈ wordsOf item.publisher ∨
    (∃ url ∈ item.url, endsPublic (hostLabels url) = true) ∨
    ∃ url ∈ item.canonicalUrl, endsPublic (hostLabels url) = true

instance : DecidablePred NamedAuthority := fun _ =>
  inferInstanceAs (Decidable (_ ∨ _))

/-- Each of the four texts occurs in the evidence only where it stands for an authority. -/
def NamesAuthorities (evidence : List EvidenceInput) : Prop :=
  ∀ item ∈ evidence, ∀ text ∈ ["nasa", ".gov", ".edu", "government"],
    text.toList <:+: item.identity → NamedAuthority item

instance : DecidablePred NamesAuthorities := fun _ =>
  List.decidableBAll _ _

theorem NamesAuthorities.named {evidence : List EvidenceInput} {item : EvidenceInput}
    (names : NamesAuthorities evidence) (member : item ∈ evidence)
    (signal : authoritativeSourceSignal item = true) : NamedAuthority item := by
  have occurs {text : String} (isText : text ∈ ["nasa", ".gov", ".edu", "government"])
      (mentions : item.mentions text = true) : NamedAuthority item :=
    names item member text isText (of_decide_eq_true mentions)
  simp only [authoritativeSourceSignal, Bool.or_eq_true, Option.any_eq_true,
    contains_iff_mem] at signal
  rcases signal with isType | ((isNasa | isGov) | isEdu) | isGovernment
  · exact .inl isType
  · exact occurs (by decide) isNasa
  · exact occurs (by decide) isGov
  · exact occurs (by decide) isEdu
  · exact occurs (by decide) isGovernment

/-- A source and its item on which full confidence may rest. -/
structure Decisive (source : SourceAssessment) (item : EvidenceInput) : Prop where
  isCited : item.citationId = source.citationId
  extract : item.retrievalKind = .pageExtract
  authoritative : source.authority = .authoritative
  direct : source.directness = .direct
  inTime : source.timeScopeMatch = true
  addresses : source.addressesClaim = true
  quality : 4 / 5 ≤ source.qualityScore

def CanonicalAssessment.citations (assessment : CanonicalAssessment) : List String :=
  assessment.conclusionCitationIds ++ citedIds (assessment.statements ++ assessment.supports ++
    assessment.contradictions ++ assessment.caveats ++ assessment.limitations)

/-- What an assessment says is what the cited evidence says. -/
structure FollowsFromEvidence (request : ModelRequest) (draft : Draft)
    (assessment : CanonicalAssessment) : Prop where
  resolved : assessment.resolution = .resolved → assessment.caveats = [] ∧
    ((assessment.finding = .supported ∧ assessment.supports ≠ [] ∧
        assessment.contradictions = []) ∨
      (assessment.finding = .disputed ∧ assessment.supports = [] ∧
        assessment.contradictions ≠ []))
  supports : ∀ source ∈ assessment.sources, source.citationId ∈ citedIds assessment.supports →
    source.stance = .supports
  contradictions : ∀ source ∈ assessment.sources,
    source.citationId ∈ citedIds assessment.contradictions → source.stance = .contradicts
  cited : ∀ id ∈ assessment.citations, (∃ source ∈ assessment.sources, source.citationId = id) ∧
    ∃ item ∈ request.evidence, item.citationId = id ∧
      ∀ other ∈ request.evidence, other.citationId = id → other = item
  unverified : assessment.finding = .unverified ↔
    assessment.supports = [] ∧ assessment.contradictions = [] ∧ assessment.caveats = []
  unverifiedLow : assessment.finding = .unverified → assessment.confidence = .low
  high : assessment.confidence = .high → ∃ source ∈ assessment.sources,
    source.citationId ∈ citedIds (assessment.supports ++ assessment.contradictions ++
      assessment.caveats) ∧
    ∃ item ∈ request.evidence, Decisive source item ∧
      (NamesAuthorities request.evidence → NamedAuthority item)
  atMost : assessment.confidence.rank ≤ draft.confidence.rank

section Following

variable {request : ModelRequest} {draft : Draft}

theorem mem_of_evidenceById {evidence : List EvidenceInput} {id : String} {item : EvidenceInput}
    (found : evidenceById evidence id = some item) : item ∈ evidence ∧ item.citationId = id := by
  have isId := find?_some found
  exact ⟨mem_reverse.mp (mem_of_find?_eq_some found), by simpa using isId⟩

/-- The sources of an assessment have distinct ids, so a citation has one stance. -/
theorem stance_of_cited {sources : List SourceAssessment} {admits : EvidenceStance → Bool}
    {statements : List CitedStatement} (cites : CitesStances sources admits statements)
    (distinct : (sources.map SourceAssessment.citationId).Nodup) {source : SourceAssessment}
    (member : source ∈ sources) (cited : source.citationId ∈ citedIds statements) :
    admits source.stance = true := by
  obtain ⟨other, isOther, sameId, admitted⟩ := cites _ cited
  rwa [inj_on_of_nodup_map distinct isOther member sameId] at admitted

theorem exists_cited (cited : WellCited (allowedCitations request) draft) {id : String}
    (isCited : id ∈ draft.conclusionCitationIds ++ citedIds (draft.statements ++ draft.supports ++
      draft.contradictions ++ draft.caveats ++ draft.limitations)) :
    ∃ source ∈ draft.sources, source.citationId = id := by
  have named : ∀ {admits : EvidenceStance → Bool} {statements : List CitedStatement},
      CitesStances draft.sources admits statements → id ∈ citedIds statements →
        ∃ source ∈ draft.sources, source.citationId = id := by
    intro admits statements cites inStatements
    obtain ⟨source, member, isId, -⟩ := cites id inStatements
    exact ⟨source, member, isId⟩
  simp only [citedIds, flatMap_append, mem_append] at isCited
  rcases isCited with inConclusion | (((inStatements | inSupports) | inContradictions) |
    inCaveats) | inLimitations
  · exact cited.conclusion id inConclusion
  · exact named cited.statements inStatements
  · exact named cited.supports inSupports
  · exact named cited.contradictions inContradictions
  · exact named cited.caveats inCaveats
  · exact named cited.limitations inLimitations

theorem map_citationId (sources : List SourceAssessment) (evidence : List EvidenceInput) :
    (normalizeSourceAuthority sources evidence).map SourceAssessment.citationId =
      sources.map SourceAssessment.citationId := by
  rw [normalizeSourceAuthority, map_map]
  exact map_congr_left fun source _ => (normalizeAuthority_fields evidence source).1

/-- Full confidence rests on an item that is an authority by its type or its texts. -/
theorem exists_decisive {relation : EvidenceRelation}
    (high : canonicalConfidence { draft with
      sources := normalizeSourceAuthority draft.sources request.evidence }
        request.evidence relation = .high) :
    ∃ source ∈ normalizeSourceAuthority draft.sources request.evidence,
      source.citationId ∈ citedIds (draft.supports ++ draft.contradictions ++ draft.caveats) ∧
      ∃ item ∈ request.evidence, Decisive source item ∧ authoritativeSourceSignal item = true := by
  obtain ⟨source, member, decisive, addresses, extract⟩ := exists_source_of_high high
  obtain ⟨original, -, rfl⟩ := mem_map.mp member
  obtain ⟨item, found, holds⟩ := (Option.any_eq_true _ _).mp extract
  simp only [Bool.and_eq_true, beq_iff_eq, decide_eq_true_eq] at holds
  obtain ⟨⟨⟨⟨isExtract, authoritative⟩, direct⟩, inTime⟩, quality⟩ := holds
  obtain ⟨inEvidence, isCited⟩ := mem_of_evidenceById found
  rw [(normalizeAuthority_fields request.evidence original).1] at found
  refine ⟨_, member, decisive, item, inEvidence, ?_, signal_of_authoritative found authoritative⟩
  exact ⟨isCited, isExtract, authoritative, direct, inTime, addresses, quality⟩

/-- The assessment of an accepted draft follows from the evidence that it cites. -/
theorem assessment_follows (completedAt : String) {message : List ReplyContent}
    (outputConstraint : ClaimOutputConstraint) (valid : validateRequest request = .ok ⟨⟩)
    (accepted : parseDraft message (allowedCitations request) request.stage = .ok draft) :
    FollowsFromEvidence request draft
      (resolveCanonicalAssessment completedAt draft request outputConstraint) := by
  have cited := wellCited_of_parseDraft accepted
  have distinct : ((normalizeSourceAuthority draft.sources request.evidence).map
      SourceAssessment.citationId).Nodup := by
    rw [map_citationId]
    exact cited.distinct
  constructor
  · intro resolved
    rcases resolved_cases resolved with ⟨relation, finding⟩ | ⟨relation, finding⟩
    · obtain ⟨supports, contradictions, caveats⟩ := of_relation_supports relation
      exact ⟨caveats, Or.inl ⟨finding, supports, contradictions⟩⟩
    · obtain ⟨supports, contradictions, caveats⟩ := of_relation_contradicts relation
      exact ⟨caveats, Or.inr ⟨finding, supports, contradictions⟩⟩
  · intro source member isCited
    simpa using stance_of_cited (cited.supports.normalized request.evidence) distinct member isCited
  · intro source member isCited
    simpa using stance_of_cited (cited.contradictions.normalized request.evidence) distinct member
      isCited
  · intro id isCited
    obtain ⟨source, member, rfl⟩ := exists_cited cited isCited
    have allowed := cited.allowed source member
    rw [allowedCitations, mem_dedup, mem_map] at allowed
    obtain ⟨item, inEvidence, sameId⟩ := allowed
    refine ⟨⟨_, mem_map_of_mem member,
      (normalizeAuthority_fields request.evidence source).1⟩, item, inEvidence, sameId, ?_⟩
    intro other isOther otherId
    exact inj_on_of_nodup_map (nodup_of_validateRequest valid) isOther inEvidence
      (otherId.trans sameId.symm)
  · exact finding_eq_unverified_iff.trans relation_eq_none_iff
  · intro unverified
    have relation := finding_eq_unverified_iff.mp unverified
    exact if_pos relation
  · intro high
    obtain ⟨source, member, isCited, item, inEvidence, decisive, signal⟩ := exists_decisive high
    exact ⟨source, member, isCited, item, inEvidence, decisive,
      fun names => names.named inEvidence signal⟩
  · exact canonicalConfidence_le

end Following

section Governing

open Formats (Value)

def governingItem (citationId url : String) : EvidenceInput where
  citationId
  publisher := "Governing Magazine"
  title := "Moon facts"
  publicationDate := none
  excerpt := "The Moon has a diameter of about 3,475 km."
  retrievalKind := .pageExtract
  url := some url
  canonicalUrl := none
  accessedAt := none
  sourceType := none
  retrievalStage := none

/-- Two pages of a company of which the name begins with a public label. -/
def governingRequest : ModelRequest where
  stage := .quick
  normalizedClaim := "The Moon has a diameter of 3,475 km."
  exactQuote := "the moon is 3475 km across"
  evidence := [governingItem "S1" "https://www.governing.com/moon",
    governingItem "S2" "https://www.governing.com/earth"]

def governingSource (citationId stance : String) : Value :=
  .object [("citationId", .string citationId), ("stance", .string stance),
    ("qualityScore", .number (.float (9 / 10))), ("qualityRationale", .string "A page extract."),
    ("authority", .string "authoritative"), ("directness", .string "direct"),
    ("addressesClaim", .bool true), ("timeScopeMatch", .bool true)]

/-- The conclusion cites a source for the claim and one against it. -/
def governingReply : List ReplyContent :=
  [.toolRequest (.ok ⟨liveFactCheckToolName, some [
    ("confidence", .string "high"),
    ("conclusion", .string "The diameter is about 3,475 km."),
    ("conclusionCitationIds", .array [.string "S1", .string "S2"]),
    ("statements", .array []),
    ("supports", .array [.object [("text", .string "The page gives 3,475 km."),
      ("citationIds", .array [.string "S1"])]]),
    ("contradictions", .array []), ("caveats", .array []), ("limitations", .array []),
    ("sources", .array [governingSource "S1" "supports", governingSource "S2" "contradicts"]),
    ("changeExplanation", .null)]⟩)]

def governingAssessed (citationId : String) (stance : EvidenceStance) : SourceAssessment where
  citationId
  stance
  qualityScore := 9 / 10
  qualityRationale := "A page extract."
  authority := .authoritative
  directness := .direct
  addressesClaim := true
  timeScopeMatch := true

def governingDraft : Draft where
  confidence := .high
  conclusion := "The diameter is about 3,475 km."
  conclusionCitationIds := ["S1", "S2"]
  statements := []
  supports := [⟨"The page gives 3,475 km.", ["S1"]⟩]
  contradictions := []
  caveats := []
  limitations := []
  sources := [governingAssessed "S1" .supports, governingAssessed "S2" .contradicts]
  changeExplanation := none

theorem validateRequest_governing : validateRequest governingRequest = .ok ⟨⟩ := by
  decide +kernel

theorem parseDraft_governing :
    parseDraft governingReply (allowedCitations governingRequest) governingRequest.stage =
      .ok governingDraft := by
  decide +kernel

/-- Two pages of an authority, which its name and its host tell. -/
def nasaRequest : ModelRequest :=
  { governingRequest with
    evidence := governingRequest.evidence.map fun item =>
      { item with publisher := "NASA", url := some "https://science.nasa.gov/moon" } }

theorem assessment_nasa :
    let assessment := resolveCanonicalAssessment "2025-01-01T00:00:00.000Z" governingDraft
      nasaRequest (claimOutputConstraint nasaRequest)
    NamesAuthorities nasaRequest.evidence ∧ assessment.confidence = .high ∧
      FollowsFromEvidence nasaRequest governingDraft assessment := by
  have valid : validateRequest nasaRequest = .ok ⟨⟩ := by decide +kernel
  have parsed : parseDraft governingReply (allowedCitations nasaRequest) nasaRequest.stage =
      .ok governingDraft := by decide +kernel
  exact ⟨by decide +kernel, by decide +kernel, assessment_follows _ _ valid parsed⟩

/-- A resolved assessment whose conclusion cites a source against the claim, and full
confidence without an authority. -/
theorem not_assessment_follows :
    (¬∀ (request : ModelRequest) (message : List ReplyContent) (draft : Draft),
      validateRequest request = .ok ⟨⟩ →
      parseDraft message (allowedCitations request) request.stage = .ok draft →
      (resolveCanonicalAssessment "" draft request (claimOutputConstraint request)).finding =
        .supported →
      ∀ source ∈ (resolveCanonicalAssessment "" draft request
          (claimOutputConstraint request)).sources,
        source.citationId ∈ draft.conclusionCitationIds ++ citedIds draft.statements →
          source.stance ≠ .contradicts) ∧
    ¬∀ (request : ModelRequest) (message : List ReplyContent) (draft : Draft),
      validateRequest request = .ok ⟨⟩ →
      parseDraft message (allowedCitations request) request.stage = .ok draft →
      (resolveCanonicalAssessment "" draft request (claimOutputConstraint request)).confidence =
        .high →
      ∃ item ∈ request.evidence, NamedAuthority item := by
  constructor
  · intro contrary
    have stances := contrary _ _ _ validateRequest_governing parseDraft_governing
      (by decide +kernel)
    exact stances (governingAssessed "S2" .contradicts) (by decide +kernel) (by decide +kernel) rfl
  · intro named
    have found := named _ _ _ validateRequest_governing parseDraft_governing (by decide +kernel)
    revert found
    decide +kernel

end Governing

end Obelus.Live.FactCheckModel
