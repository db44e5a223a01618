import Obelus.Data.Text
import Obelus.Live.FactCheckModel.Findings

/-!
# Choosing between two assessments

Whether a deep assessment takes the place of a preliminary one is decided over the canonical
assessments, and once more over the form in which the interface holds them, with defaults for
what may be missing there.  Both decisions follow one rule and differ in what they take for
new evidence only.
-/

namespace Obelus.Live.FactCheckModel

open List
open Data (trim)

inductive SelectionReason
  | deepConfirmedOrStrengthened
  | deepResolvedPreliminary
  | citedNewEvidenceChangedFinding
  | preliminaryStronger
  | deepChangeLackedCitedNewEvidence
  deriving DecidableEq

structure AssessmentSelection where
  assessment : CanonicalAssessment
  retainedPreliminary : Bool
  reason : SelectionReason

def confidenceRank : CanonicalConfidence → Nat
  | .low => 1
  | .medium => 2
  | .high => 3

def strengthOf (confidence : CanonicalConfidence) (resolution : Resolution) : Nat :=
  confidenceRank confidence * 2 + if resolution = .resolved then 1 else 0

namespace CanonicalAssessment

def assessmentStrength (assessment : CanonicalAssessment) : Nat :=
  strengthOf assessment.confidence assessment.resolution

def canonicalUrls (assessment : CanonicalAssessment) : List String :=
  assessment.inventory.filterMap EvidenceInput.canonicalUrl

/-- The map of the inventory, in which the last item of an id stays. -/
def inventoryById (assessment : CanonicalAssessment) (citationId : String) :
    Option EvidenceInput :=
  assessment.inventory.reverse.find? fun source => source.citationId = citationId

/-- The ids that a support, a contradiction or a caveat cites. -/
def decisive (assessment : CanonicalAssessment) : List String :=
  citedIds (assessment.supports ++ assessment.contradictions ++ assessment.caveats)

end CanonicalAssessment

def hasCitedNewDecisiveEvidence (preliminary deep : CanonicalAssessment) : Bool :=
  match deep.changeExplanation with
  | none => false
  | some explanation => explanation.citationIds.any fun citationId =>
    ((deep.inventoryById citationId).bind EvidenceInput.canonicalUrl).any fun url =>
      deep.decisive.contains citationId && !preliminary.canonicalUrls.contains url

def selectCanonicalAssessment (preliminary deep : CanonicalAssessment) : AssessmentSelection :=
  let preliminaryStrength := preliminary.assessmentStrength
  let deepStrength := deep.assessmentStrength
  if deep.finding = preliminary.finding then
    if preliminaryStrength ≤ deepStrength then ⟨deep, false, .deepConfirmedOrStrengthened⟩
    else ⟨preliminary, true, .preliminaryStronger⟩
  else if preliminary.resolution = .unresolved ∧ deep.resolution = .resolved ∧
      preliminaryStrength < deepStrength then ⟨deep, false, .deepResolvedPreliminary⟩
  else if hasCitedNewDecisiveEvidence preliminary deep = false then
    ⟨preliminary, true, .deepChangeLackedCitedNewEvidence⟩
  else if deepStrength < preliminaryStrength then ⟨preliminary, true, .preliminaryStronger⟩
  else ⟨deep, false, .citedNewEvidenceChangedFinding⟩

structure EvidenceSource where
  citationKey : String
  canonicalUrl : String

structure AssessmentCitations where
  conclusion : List String
  support : List (List String)
  contradiction : List (List String)
  caveats : List (List String)

/-- What the policy of the interface reads of an assessment.  The interface has words of its
own for the findings, the resolutions and the confidences. -/
structure Assessment where
  verdict : Option Finding
  resolution : Option Resolution
  confidence : Option CanonicalConfidence
  citations : AssessmentCitations
  sources : List EvidenceSource
  changeExplanation : Option String
  changeExplanationCitations : Option (List String)

/-- The form in which the interface takes an assessment over.  Its items have addresses. -/
def localAssessment (result : CanonicalAssessment) : Assessment where
  verdict := some result.finding
  resolution := some result.resolution
  confidence := some result.confidence
  citations :=
    { conclusion := result.conclusionCitationIds
      support := result.supports.map CitedStatement.citationIds
      contradiction := result.contradictions.map CitedStatement.citationIds
      caveats := result.caveats.map CitedStatement.citationIds }
  sources := result.inventory.map fun source =>
    ⟨source.citationId, source.canonicalUrl.getD ""⟩
  changeExplanation := result.changeExplanation.map CitedStatement.text
  changeExplanationCitations := result.changeExplanation.map CitedStatement.citationIds

def resolutionForFinding : Finding → Resolution
  | .supported | .disputed => .resolved
  | .needsContext | .unverified => .unresolved

def Assessment.assessmentStrength (assessment : Assessment) : Nat :=
  strengthOf (assessment.confidence.getD .low)
    (assessment.resolution.getD ((assessment.verdict.map resolutionForFinding).getD .unresolved))

def hasCitedNewEvidence (preliminary deep : Assessment) : Bool :=
  if trim (deep.changeExplanation.getD "") = "" then false
  else
    let preliminaryUrls := preliminary.sources.map EvidenceSource.canonicalUrl
    let decisiveCitations := deep.citations.support.flatten ++
      deep.citations.contradiction.flatten ++ deep.citations.caveats.flatten
    let explanationCitations := deep.changeExplanationCitations.getD deep.citations.conclusion
    deep.sources.any fun source =>
      !preliminaryUrls.contains source.canonicalUrl &&
        explanationCitations.contains source.citationKey &&
        decisiveCitations.contains source.citationKey

def deepAssessmentSupersedesPreliminary (preliminary deep : Assessment) : Bool :=
  match preliminary.verdict, deep.verdict with
  | none, deepFinding => deepFinding.isSome
  | some _, none => false
  | some preliminaryFinding, some deepFinding =>
    let preliminaryResolution :=
      preliminary.resolution.getD (resolutionForFinding preliminaryFinding)
    let deepResolution := deep.resolution.getD (resolutionForFinding deepFinding)
    let preliminaryStrength := preliminary.assessmentStrength
    let deepStrength := deep.assessmentStrength
    if preliminaryFinding = deepFinding then preliminaryStrength ≤ deepStrength
    else if preliminaryResolution = .unresolved ∧ deepResolution = .resolved ∧
        preliminaryStrength < deepStrength then true
    else hasCitedNewEvidence preliminary deep && preliminaryStrength ≤ deepStrength

def CanonicalAssessment.Addressed (assessment : CanonicalAssessment) : Prop :=
  ∀ source ∈ assessment.inventory, source.canonicalUrl = some (source.canonicalUrl.getD "")

variable (preliminary deep : CanonicalAssessment)

/-- An unresolved finding is resolved with greater strength. -/
def ResolvesStronger : Prop :=
  preliminary.resolution = .unresolved ∧ deep.resolution = .resolved ∧
    preliminary.assessmentStrength < deep.assessmentStrength

/-- The change explanation and a support, contradiction or caveat cite a source that the
preliminary inventory does not have. -/
def CitesNewSource : Prop :=
  ∃ explanation ∈ deep.changeExplanation, ∃ source ∈ deep.inventory,
    source.citationId ∈ explanation.citationIds ∧ source.citationId ∈ deep.decisive ∧
    ∃ url, source.canonicalUrl = some url ∧ url ∉ preliminary.canonicalUrls

/-- The rule of both decisions, for what they take for new evidence. -/
def Warrants (newEvidence : Prop) : Prop :=
  if deep.finding = preliminary.finding then
    preliminary.assessmentStrength ≤ deep.assessmentStrength
  else ResolvesStronger preliminary deep ∨
    newEvidence ∧ preliminary.assessmentStrength ≤ deep.assessmentStrength

variable {preliminary deep}

theorem inventoryById_eq_some_iff {citationId : String} {source : EvidenceInput}
    (distinct : (deep.inventory.map EvidenceInput.citationId).Nodup) :
    deep.inventoryById citationId = some source ↔
      source ∈ deep.inventory ∧ source.citationId = citationId := by
  have sound : ∀ found, deep.inventoryById citationId = some found →
      found ∈ deep.inventory ∧ found.citationId = citationId := by
    intro found isFound
    exact ⟨mem_reverse.mp (mem_of_find?_eq_some isFound), by simpa using find?_some isFound⟩
  constructor
  · exact sound source
  · rintro ⟨member, rfl⟩
    cases looked : deep.inventoryById source.citationId with
    | none =>
      have missed := find?_eq_none.mp looked source (mem_reverse.mpr member)
      simp at missed
    | some found =>
      obtain ⟨foundMember, sameId⟩ := sound found looked
      rw [inj_on_of_nodup_map distinct foundMember member sameId]

theorem hasCitedNewDecisiveEvidence_iff (preliminary : CanonicalAssessment)
    (distinct : (deep.inventory.map EvidenceInput.citationId).Nodup) :
    hasCitedNewDecisiveEvidence preliminary deep = true ↔ CitesNewSource preliminary deep := by
  unfold hasCitedNewDecisiveEvidence CitesNewSource
  cases deep.changeExplanation with
  | none => simp
  | some explanation =>
    simp only [any_eq_true, Option.any_eq_true, Option.bind_eq_some_iff,
      inventoryById_eq_some_iff distinct, Bool.and_eq_true, contains_iff_mem, Option.mem_some_iff,
      exists_eq_left']
    constructor
    · rintro ⟨_, cited, url, ⟨source, ⟨member, rfl⟩, address⟩, decisive, isNew⟩
      exact ⟨source, member, cited, decisive, url, address, by simpa using isNew⟩
    · rintro ⟨source, member, cited, decisive, url, address, isNew⟩
      exact ⟨_, cited, url, ⟨source, ⟨member, rfl⟩, address⟩, decisive, by simpa using isNew⟩

theorem hasCitedNewEvidence_iff (preliminaryAddressed : preliminary.Addressed)
    (deepAddressed : deep.Addressed) :
    hasCitedNewEvidence (localAssessment preliminary) (localAssessment deep) = true ↔
      CitesNewSource preliminary deep ∧
        ∀ explanation ∈ deep.changeExplanation, trim explanation.text ≠ "" := by
  have urls : preliminary.canonicalUrls =
      preliminary.inventory.map fun source => source.canonicalUrl.getD "" :=
    filterMap_eq_map_iff_forall_eq_some.mpr preliminaryAddressed
  unfold hasCitedNewEvidence CitesNewSource
  rw [urls]
  cases explained : deep.changeExplanation with
  | none => simp [localAssessment, explained, trim]
  | some explanation =>
    by_cases blank : trim explanation.text = ""
    · simp [localAssessment, explained, blank]
    · simp only [localAssessment, explained, Option.map_some, Option.getD_some, blank, if_false,
        any_map, map_map, any_eq_true, Function.comp_def, Bool.and_eq_true, Bool.not_eq_true',
        contains_eq_mem, decide_eq_true_eq, decide_eq_false_iff_not, Option.mem_some_iff,
        exists_eq_left', forall_eq', ne_eq, not_false_eq_true, and_true,
        CanonicalAssessment.decisive, citedIds, flatMap_def, map_append, flatten_append]
      constructor
      · rintro ⟨source, member, ⟨isNew, cited⟩, decisive⟩
        exact ⟨source, member, cited, decisive, _, deepAddressed source member, isNew⟩
      · rintro ⟨source, member, cited, decisive, url, address, isNew⟩
        exact ⟨source, member, ⟨by rwa [address], cited⟩, decisive⟩

theorem supersedes_iff_warrants :
    deepAssessmentSupersedesPreliminary (localAssessment preliminary) (localAssessment deep) =
      true ↔ Warrants preliminary deep
        (hasCitedNewEvidence (localAssessment preliminary) (localAssessment deep) = true) := by
  simp only [deepAssessmentSupersedesPreliminary, Warrants, ResolvesStronger, localAssessment,
    Assessment.assessmentStrength]
  grind [CanonicalAssessment.assessmentStrength]

/-- The deep assessment is chosen as the rule says, and new evidence is the reason exactly
where nothing else is. -/
theorem selectCanonicalAssessment_iff (preliminary deep : CanonicalAssessment) :
    ((selectCanonicalAssessment preliminary deep).retainedPreliminary = false ↔
      Warrants preliminary deep (hasCitedNewDecisiveEvidence preliminary deep = true)) ∧
      ((selectCanonicalAssessment preliminary deep).retainedPreliminary = false →
        (selectCanonicalAssessment preliminary deep).assessment = deep ∧
          ((selectCanonicalAssessment preliminary deep).reason = .citedNewEvidenceChangedFinding ↔
            deep.finding ≠ preliminary.finding ∧ ¬ResolvesStronger preliminary deep)) := by
  unfold selectCanonicalAssessment Warrants ResolvesStronger
  grind

theorem Warrants.assessmentStrength_le {newEvidence : Prop}
    (warrants : Warrants preliminary deep newEvidence) :
    preliminary.assessmentStrength ≤ deep.assessmentStrength := by
  unfold Warrants ResolvesStronger at warrants
  split_ifs at warrants with same
  · exact warrants
  · omega

/-- The resolution never makes up for a lower confidence. -/
theorem confidenceRank_le_of_assessmentStrength_le
    (stronger : preliminary.assessmentStrength ≤ deep.assessmentStrength) :
    confidenceRank preliminary.confidence ≤ confidenceRank deep.confidence := by
  unfold CanonicalAssessment.assessmentStrength strengthOf at stronger
  split_ifs at stronger <;> omega

/-- The interface lets the deep assessment take the place of the preliminary one as
`select_canonical_assessment` does, but where that rests on new evidence it asks for an
explanation in words as well.  The chosen assessment is no less confident, and changes a
resolved finding for a newly cited source only. -/
theorem deepAssessmentSupersedesPreliminary_iff
    (distinct : (deep.inventory.map EvidenceInput.citationId).Nodup)
    (preliminaryAddressed : preliminary.Addressed) (deepAddressed : deep.Addressed) :
    (deepAssessmentSupersedesPreliminary (localAssessment preliminary) (localAssessment deep) =
        true ↔
      (selectCanonicalAssessment preliminary deep).retainedPreliminary = false ∧
        ((selectCanonicalAssessment preliminary deep).reason = .citedNewEvidenceChangedFinding →
          ∀ explanation ∈ deep.changeExplanation, trim explanation.text ≠ "")) ∧
      ((selectCanonicalAssessment preliminary deep).retainedPreliminary = false →
        (selectCanonicalAssessment preliminary deep).assessment = deep ∧
          confidenceRank preliminary.confidence ≤ confidenceRank deep.confidence ∧
          (preliminary.resolution = .resolved → deep.finding ≠ preliminary.finding →
            CitesNewSource preliminary deep)) := by
  have newEvidence := hasCitedNewEvidence_iff preliminaryAddressed deepAddressed
  have newDecisive := hasCitedNewDecisiveEvidence_iff preliminary distinct
  obtain ⟨selected_iff, selectedDeep⟩ := selectCanonicalAssessment_iff preliminary deep
  constructor
  · rw [supersedes_iff_warrants]
    unfold Warrants at selected_iff ⊢
    grind
  · intro selected
    have warrants := selected_iff.mp selected
    refine ⟨(selectedDeep selected).1,
      confidenceRank_le_of_assessmentStrength_le warrants.assessmentStrength_le, ?_⟩
    intro resolved differs
    rw [Warrants, if_neg differs] at warrants
    rcases warrants with ⟨unresolved, -⟩ | ⟨cited, -⟩
    · rw [resolved] at unresolved
      cases unresolved
    · exact newDecisive.mp cited

section Governing

def changedRequest : ModelRequest :=
  { governingRequest with stage := .deep }

def changedDraft (explanation : String) : Draft :=
  { governingDraft with
    supports := []
    contradictions := [⟨"The page gives another diameter.", ["S2"]⟩]
    changeExplanation := some ⟨explanation, ["S2"]⟩ }

def governingAssessment : CanonicalAssessment :=
  resolveCanonicalAssessment "" governingDraft
    { governingRequest with evidence := governingRequest.evidence.take 1 } .general

def changedAssessment (explanation : String) : CanonicalAssessment :=
  resolveCanonicalAssessment "" (changedDraft explanation) changedRequest .general

/-- A change that is explained is chosen and shown. -/
theorem deepAssessmentSupersedesPreliminary_changed :
    let changed := changedAssessment "The page is newer."
    (selectCanonicalAssessment governingAssessment changed).reason =
        .citedNewEvidenceChangedFinding ∧
      deepAssessmentSupersedesPreliminary (localAssessment governingAssessment)
        (localAssessment changed) = true ∧
      (selectCanonicalAssessment governingAssessment changed).assessment = changed ∧
      confidenceRank governingAssessment.confidence ≤ confidenceRank changed.confidence ∧
      CitesNewSource governingAssessment changed := by
  intro changed
  have selected :
      (selectCanonicalAssessment governingAssessment changed).retainedPreliminary = false ∧
        (selectCanonicalAssessment governingAssessment changed).reason =
          .citedNewEvidenceChangedFinding := by
    decide +kernel
  obtain ⟨supersedes, chosen⟩ := @deepAssessmentSupersedesPreliminary_iff governingAssessment
    changed (by decide +kernel) (by unfold CanonicalAssessment.Addressed; decide +kernel)
    (by unfold CanonicalAssessment.Addressed; decide +kernel)
  obtain ⟨isDeep, confident, cites⟩ := chosen selected.1
  refine ⟨selected.2, supersedes.mpr ⟨selected.1, fun _ => ?_⟩, isDeep, confident,
    cites (by decide +kernel) (by decide +kernel)⟩
  decide +kernel

/-- An accepted change of the finding that the interface does not show: the explanation of the
change is white space for the interface only. -/
theorem not_supersedes_iff_selected :
    validateDraft (allowedCitations changedRequest) .deep (changedDraft "\uFEFF") = .ok ⟨⟩ ∧
      ¬∀ preliminary deep : CanonicalAssessment,
        (deep.inventory.map EvidenceInput.citationId).Nodup → preliminary.Addressed →
        deep.Addressed →
        (deepAssessmentSupersedesPreliminary (localAssessment preliminary)
            (localAssessment deep) = true ↔
          (selectCanonicalAssessment preliminary deep).retainedPreliminary = false) := by
  refine ⟨by decide +kernel, fun agree => ?_⟩
  have agrees := agree governingAssessment (changedAssessment "\uFEFF") (by decide +kernel)
    (by unfold CanonicalAssessment.Addressed; decide +kernel)
    (by unfold CanonicalAssessment.Addressed; decide +kernel)
  revert agrees
  decide +kernel

end Governing

end Obelus.Live.FactCheckModel
