import Mathlib.Algebra.Order.Ring.Rat
import Obelus.Data.Fallible
import Obelus.Data.JsMap
import Obelus.Live.FactCheck.Jobs

/-!
# Assessments made from an answer

What the signed-in model answers is checked against the inventory of evidence, its confidence
is lowered where the evidence is weak, and the assessment is made from it.
-/

namespace Obelus.Live.Assessment

open Data
open Data.CodeUnits (units)
open FactCheck (FactCheckStage LiveCaptureError StoredLocalFactCheckJob)

def maxEvidenceItems : Nat := 7
def maxExcerptLength : Nat := 1800

inductive Verdict
  | supported
  | mostlySupported
  | mixed
  | unsupported
  | unverifiable

inductive Confidence
  | low
  | medium
  | high
  deriving DecidableEq

inductive RetrievalKind
  | searchSnippet
  | pageExtract
  deriving DecidableEq

inductive Provider
  | ollama
  | chatgptCodex
  deriving DecidableEq

inductive Stance
  | supports
  | contradicts
  | context

structure WebEvidenceItem where
  url : CodeUnits
  canonicalUrl : CodeUnits
  publisher : CodeUnits
  title : CodeUnits
  accessedAt : CodeUnits
  excerpt : CodeUnits
  retrievalKind : RetrievalKind

structure LocalEvidenceItem where
  citationId : CodeUnits
  url : CodeUnits
  canonicalUrl : CodeUnits
  publisher : CodeUnits
  title : CodeUnits
  publicationDate : Option CodeUnits
  accessedAt : CodeUnits
  excerpt : CodeUnits
  retrievalKind : Option RetrievalKind

structure CitedStatement where
  text : CodeUnits
  citationIds : List CodeUnits

structure LocalAssessmentDraft where
  verdict : Verdict
  confidence : Confidence
  conclusion : CodeUnits
  conclusionCitationIds : List CodeUnits
  supports : List CitedStatement
  contradictions : List CitedStatement
  caveats : List CitedStatement

structure AssessmentProvenance where
  provider : Provider
  model : CodeUnits
  isLocal : Bool
  evidenceScope : CodeUnits

structure AssessedSource where
  citationId : CodeUnits
  stance : Stance
  qualityScore : ℚ
  qualityRationale : CodeUnits

inductive AssessmentStage
  | preliminary
  | deep

structure AssessmentResult where
  stage : AssessmentStage
  originalQuote : CodeUnits
  normalizedClaim : CodeUnits
  verdict : Verdict
  confidence : Confidence
  conclusion : CodeUnits
  conclusionCitationIds : List CodeUnits
  statements : List CitedStatement
  supports : List CitedStatement
  contradictions : List CitedStatement
  caveats : List CitedStatement
  limitations : List CitedStatement
  sources : List AssessedSource
  inventory : List LocalEvidenceItem
  completedAt : CodeUnits
  aiGenerated : Bool
  provenance : AssessmentProvenance

/-- What the model answers, with the fields that are absent. -/
inductive ModelValue
  | null
  | bool (value : Bool)
  | number (value : ℚ)
  | string (text : CodeUnits)
  | array (elements : List ModelValue)
  | object (fields : List (String × ModelValue))

/-- The compatibility form of a text, and the text of a time. -/
structure Host where
  nfkc : CodeUnits → CodeUnits
  toISOString : Nat → CodeUnits

def evidenceRichness (source : WebEvidenceItem) : Nat :=
  (if (units "— structured company-size fields").isSuffixOf source.title then
    maxExcerptLength * 2 else 0) + source.excerpt.length

def deduplicateEvidenceByCanonicalUrl (sources : List WebEvidenceItem) : List WebEvidenceItem :=
  (sources.foldl (fun unique source =>
    match unique.get? source.canonicalUrl with
    | none => unique.set source.canonicalUrl source
    | some existing =>
      if evidenceRichness existing < evidenceRichness source then
        unique.set source.canonicalUrl source
      else unique) (JsMap.empty : JsMap CodeUnits WebEvidenceItem)).values

def citationIdAt (index : Nat) : CodeUnits :=
  units "src_" ++ units (toString (index + 1))

/-- The inventory that `retrieveEvidence` makes of the items of the web. -/
def subscriptionInventory (items : List WebEvidenceItem) : List LocalEvidenceItem :=
  ((deduplicateEvidenceByCanonicalUrl items).take maxEvidenceItems).mapIdx fun index source =>
    { citationId := citationIdAt index
      url := source.url
      canonicalUrl := source.canonicalUrl
      publisher := source.publisher
      title := source.title
      publicationDate := none
      accessedAt := source.accessedAt
      excerpt := source.excerpt
      retrievalKind := some source.retrievalKind }

def invalidModelResponse : LiveCaptureError where
  code := "invalid_local_research_response"
  message :=
    units "The local research model returned claims or citations that could not be validated."
  retryable := false

def optionalRecord : ModelValue → Option (List (String × ModelValue))
  | .object fields => some fields
  | _ => none

def asRecord (value : ModelValue) (name : String) :
    Except LiveCaptureError (List (String × ModelValue)) :=
  match optionalRecord value with
  | some fields => .ok fields
  | none =>
    .error
      { code := "local_research_unavailable"
        message := units (name ++ " is invalid.")
        retryable := false }

def verdicts : List (String × Verdict) :=
  [("Supported", .supported), ("Mostly supported", .mostlySupported), ("Mixed", .mixed),
    ("Unsupported", .unsupported), ("Unverifiable", .unverifiable)]

def confidences : List (String × Confidence) :=
  [("Low", .low), ("Medium", .medium), ("High", .high)]

/-- The value whose name is given. -/
def oneOf {α : Type} (names : List (String × α)) : Option ModelValue → Option α
  | some (.string text) => (names.find? fun name => units name.1 == text).map Prod.snd
  | _ => none

def boundedText (host : Host) (value : Option ModelValue) (maxLength : Nat) : CodeUnits :=
  match value with
  | some (.string text) =>
    (CodeUnits.trim (CodeUnits.collapseFrom false (host.nfkc text))).take maxLength
  | _ => []

/-- A citation, or the empty text for what is not a text. -/
def asCitation : ModelValue → CodeUnits
  | .string text => text
  | _ => []

def citationIds (value : Option ModelValue) (allowed : List CodeUnits) :
    Except LiveCaptureError (List CodeUnits) :=
  match value with
  | some (.array elements) => do
    ensure (elements.length ≠ 0 ∧ elements.length ≤ 4) invalidModelResponse
    let ids := elements.map asCitation
    ensure (ids.Nodup ∧ ids.all allowed.contains = true) invalidModelResponse
    pure ids
  | _ => .error invalidModelResponse

def containsInlineCitationMarker (text : CodeUnits) (allowed : List CodeUnits) : Bool :=
  text.any (units "【】").contains || allowed.any (CodeUnits.includes text)

def citedStatementDraft (host : Host) (allowed : List CodeUnits) (entry : ModelValue) :
    Except LiveCaptureError CitedStatement := do
  let statement := (optionalRecord entry).getD []
  let text := boundedText host (statement.lookup "text") 500
  let statementCitationIds ← citationIds (statement.lookup "citationIds") allowed
  ensure (text ≠ [] ∧ CodeUnits.utf8Length text ≤ 500 ∧
    containsInlineCitationMarker text allowed = false) invalidModelResponse
  pure { text, citationIds := statementCitationIds }

def citedStatementDrafts (host : Host) (value : Option ModelValue) (allowed : List CodeUnits) :
    Except LiveCaptureError (List CitedStatement) :=
  match value with
  | none => pure []
  | some (.array elements) => do
    ensure (elements.length ≤ 4) invalidModelResponse
    elements.mapM (citedStatementDraft host allowed)
  | some _ => .error invalidModelResponse

def validateAssessmentDraft (host : Host) (value : ModelValue)
    (inventory : List LocalEvidenceItem) : Except LiveCaptureError LocalAssessmentDraft := do
  let record ← asRecord value "Local assessment"
  let allowed := inventory.map LocalEvidenceItem.citationId
  ensure (allowed.length ≠ 0 ∧ allowed.Nodup) invalidModelResponse
  let conclusion := boundedText host (record.lookup "conclusion") 280
  let conclusionCitationIds ← citationIds (record.lookup "conclusionCitationIds") allowed
  let supports ← citedStatementDrafts host (record.lookup "supports") allowed
  let contradictions ← citedStatementDrafts host (record.lookup "contradictions") allowed
  let caveats ← citedStatementDrafts host (record.lookup "caveats") allowed
  let verdict ← (oneOf verdicts (record.lookup "verdict")).elim (.error invalidModelResponse) .ok
  let confidence ← (oneOf confidences (record.lookup "confidence")).elim
    (.error invalidModelResponse) .ok
  ensure (conclusion ≠ [] ∧ conclusionCitationIds.length ≠ 0 ∧
    containsInlineCitationMarker conclusion allowed = false) invalidModelResponse
  pure
    { verdict := verdict
      confidence := confidence
      conclusion := conclusion
      conclusionCitationIds := conclusionCitationIds
      supports := supports
      contradictions := contradictions
      caveats := caveats }

def isReference (publisher : CodeUnits) : Bool :=
  publisher == units "English Wikipedia" || publisher == units "Wikidata"

def publicDomains : List CodeUnits :=
  [units "gov", units "mil", units "edu"]

/-- What follows a dot is a public domain, up to a slash or the end. -/
def beginsPublic (rest : CodeUnits) : Bool :=
  publicDomains.contains ((rest.take 3).map CodeUnits.lower) &&
    (rest.drop 3).head?.all (· == 0x2F)

/-- `/\.(?:gov|mil|edu)(?:\/|$)/i`. -/
def publicPattern : CodeUnits → Bool
  | [] => false
  | unit :: rest => (unit == 0x2E && beginsPublic rest) || publicPattern rest

def evidenceQuality (source : LocalEvidenceItem) : ℚ :=
  if isReference source.publisher then 1 / 2
  else
    let score : ℚ := if publicPattern source.canonicalUrl then 9 / 10 else 13 / 20
    if source.retrievalKind = some .searchSnippet then min score (13 / 20) else score

def evidenceQualityRationale (source : LocalEvidenceItem) : CodeUnits :=
  if isReference source.publisher then
    source.publisher ++ units (" is a secondary, community-maintained reference source; " ++
      "verify consequential findings against primary sources.")
  else
    let material :=
      if source.retrievalKind = some .pageExtract then "page extract" else "search-result excerpt"
    source.publisher ++
      units (" was discovered through public-web search and represented by a bounded " ++
        material ++ "; open the cited source to assess its full context and authority.")

def cites (ids : List CodeUnits) (source : LocalEvidenceItem) : Bool :=
  ids.contains source.citationId

def calibrateSubscriptionConfidence (draft : LocalAssessmentDraft)
    (inventory : List LocalEvidenceItem) : LocalAssessmentDraft :=
  if draft.confidence ≠ .high then draft
  else
    let strongestCitedEvidence :=
      (inventory.filter (cites draft.conclusionCitationIds)).foldl
        (fun maximum source => max maximum (evidenceQuality source)) 0
    if 4 / 5 ≤ strongestCitedEvidence then draft else { draft with confidence := .medium }

def statementKey (statement : CitedStatement) : CodeUnits :=
  statement.text ++ 0 :: [0x2C].intercalate statement.citationIds

def uniqueStatements (statements : List CitedStatement) : List CitedStatement :=
  let unique := JsMap.ofEntries
    (statements.map fun statement => (statementKey statement, statement))
  unique.values.take 16

def limitationText (provider : Provider) (stage : FactCheckStage) : String :=
  let check := if stage = .quick then "preliminary" else "follow-up"
  if provider = .chatgptCodex then
    "This " ++ check ++ " finding is bounded to the cited public-web inventory available at " ++
      "check time; it is not an exhaustive search of every source."
  else
    "This local " ++ check ++ " check considered only the cited English Wikipedia and Wikidata " ++
      "entries; it did not search the wider web or primary-source databases."

/-- A source supports where no contradiction cites it, and the other way round. -/
def stanceOf (supportingIds contradictingIds : List CodeUnits) (id : CodeUnits) : Stance :=
  if supportingIds.contains id && !contradictingIds.contains id then .supports
  else if contradictingIds.contains id && !supportingIds.contains id then .contradicts
  else .context

def citedIds (statements : List CitedStatement) : List CodeUnits :=
  statements.flatMap CitedStatement.citationIds

def finishAssessment {ρ : Type} (host : Host) (job : StoredLocalFactCheckJob ρ)
    (inventory : List LocalEvidenceItem) (draft : LocalAssessmentDraft)
    (provenance : AssessmentProvenance) (completedAtMs : Nat) : AssessmentResult :=
  let limitation : CitedStatement :=
    { text := units (limitationText provenance.provider job.stage)
      citationIds := inventory.map LocalEvidenceItem.citationId }
  let conclusion : CitedStatement :=
    { text := draft.conclusion, citationIds := draft.conclusionCitationIds }
  let statements := uniqueStatements
    (conclusion :: (draft.supports ++ draft.contradictions ++ draft.caveats ++ [limitation]))
  { stage := if job.stage = .quick then .preliminary else .deep
    originalQuote := units job.request.exactQuote
    normalizedClaim := units job.request.normalizedClaim
    verdict := draft.verdict
    confidence := draft.confidence
    conclusion := draft.conclusion
    conclusionCitationIds := draft.conclusionCitationIds
    statements
    supports := draft.supports
    contradictions := draft.contradictions
    caveats := draft.caveats
    limitations := [limitation]
    sources := (inventory.filter (cites (citedIds statements))).map fun source =>
      { citationId := source.citationId
        stance := stanceOf (citedIds draft.supports) (citedIds draft.contradictions)
          source.citationId
        qualityScore := evidenceQuality source
        qualityRationale := evidenceQualityRationale source }
    inventory
    completedAt := host.toISOString completedAtMs
    aiGenerated := true
    provenance }

end Obelus.Live.Assessment
