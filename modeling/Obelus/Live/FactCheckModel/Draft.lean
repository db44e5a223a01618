import Obelus.Data.Occurrence
import Obelus.Formats.ToolArguments

/-!
# Data of the fact-check model

The evidence that is sent to the model, the draft that it submits and the assessment that
is made of it.  The score of a source is a finite number.
-/

namespace Obelus.Live.FactCheckModel

open Formats (ErrorData CallToolRequestParams JsonObject)

inductive ModelStage
  | quick
  | deep
  deriving DecidableEq

inductive RetrievalKind
  | searchSnippet
  | pageExtract
  deriving DecidableEq

inductive SourceType
  | government
  | academic
  | official
  | primary
  | secondary
  | unknown
  deriving DecidableEq

inductive AssessmentStage
  | preliminary
  | deep

structure EvidenceInput where
  citationId : String
  publisher : String
  title : String
  publicationDate : Option String
  excerpt : String
  retrievalKind : RetrievalKind
  url : Option String
  canonicalUrl : Option String
  accessedAt : Option String
  sourceType : Option SourceType
  retrievalStage : Option AssessmentStage

structure ModelRequest where
  stage : ModelStage
  normalizedClaim : String
  exactQuote : String
  evidence : List EvidenceInput

inductive Resolution
  | resolved
  | unresolved
  deriving DecidableEq

inductive EvidenceRelation
  | supports
  | contradicts
  | qualified
  | conflicts
  | none
  deriving DecidableEq

inductive Finding
  | supported
  | disputed
  | needsContext
  | unverified
  deriving DecidableEq

inductive CanonicalConfidence
  | low
  | medium
  | high
  deriving DecidableEq

inductive EvidenceStance
  | supports
  | contradicts
  | qualifies
  | conflicts
  | neutral
  deriving DecidableEq

inductive SourceAuthority
  | authoritative
  | credible
  | limited
  | unknown
  deriving DecidableEq

inductive SourceDirectness
  | direct
  | indirect
  deriving DecidableEq

structure CitedStatement where
  text : String
  citationIds : List String
  deriving DecidableEq

structure SourceAssessment where
  citationId : String
  stance : EvidenceStance
  qualityScore : ℚ
  qualityRationale : String
  authority : SourceAuthority
  directness : SourceDirectness
  addressesClaim : Bool
  timeScopeMatch : Bool
  deriving DecidableEq

structure Draft where
  confidence : CanonicalConfidence
  conclusion : String
  conclusionCitationIds : List String
  statements : List CitedStatement
  supports : List CitedStatement
  contradictions : List CitedStatement
  caveats : List CitedStatement
  limitations : List CitedStatement
  sources : List SourceAssessment
  changeExplanation : Option CitedStatement
  deriving DecidableEq

structure CanonicalAssessment where
  schemaVersion : String
  policyVersion : String
  stage : AssessmentStage
  resolution : Resolution
  evidenceRelation : EvidenceRelation
  finding : Finding
  confidence : CanonicalConfidence
  conclusion : String
  conclusionCitationIds : List String
  statements : List CitedStatement
  supports : List CitedStatement
  contradictions : List CitedStatement
  caveats : List CitedStatement
  limitations : List CitedStatement
  sources : List SourceAssessment
  changeExplanation : Option CitedStatement
  originalQuote : String
  normalizedClaim : String
  inventory : List EvidenceInput
  completedAt : String
  aiGenerated : Bool

inductive ModelError
  | invalidRequest (message : String)
  | invalidModelResponse
  deriving DecidableEq

/-- The content of a reply; all other kinds of content are refused alike. -/
inductive ReplyContent
  | text (text : String)
  | toolRequest (toolCall : Except ErrorData CallToolRequestParams)
  | other

inductive ClaimOutputConstraint
  | general
  | ambiguousOrganizationSize
  deriving DecidableEq

/-!
## Requests of the fact-check model

What a request must satisfy before it is sent, and whether its claim compares the size of
organizations without a metric and a date.
-/

open List
open Data (ensure bind_eq_ok_iff ensure_eq_ok_iff)
open Meetings.Validation (byteLength isWhitespace)

def maxNormalizedClaimBytes : Nat := 2000
def maxExactQuoteBytes : Nat := 4000
def maxEvidenceItems : Nat := 12
def maxCitationIdBytes : Nat := 32
def maxPublisherBytes : Nat := 200
def maxTitleBytes : Nat := 500
def maxPublicationDateBytes : Nat := 64
def maxExcerptBytes : Nat := 4000
def maxEvidenceTextBytes : Nat := 32000

/-- A text of which nothing is left without the white space around it. -/
def isBlank (text : String) : Bool :=
  text.toList.all isWhitespace

def validateNonemptyBounded (value : String) (maximumBytes : Nat) (message : String) :
    Except ModelError Unit :=
  ensure (isBlank value = false ∧ byteLength value ≤ maximumBytes) (.invalidRequest message)

def validCitationId (value : String) : Bool :=
  !value.isEmpty && byteLength value ≤ maxCitationIdBytes &&
    value.toList.all fun c => c.isAlphanum || c == '-' || c == '_'

/-- The checks of one item of the evidence. -/
def validateEvidenceItem (item : EvidenceInput) : Except ModelError Unit := do
  validateNonemptyBounded item.publisher maxPublisherBytes
    "evidence publisher is empty or too long"
  validateNonemptyBounded item.title maxTitleBytes "evidence title is empty or too long"
  ensure (∀ date ∈ item.publicationDate,
      date.isEmpty = false ∧ byteLength date ≤ maxPublicationDateBytes)
    (ModelError.invalidRequest "evidence publication date is invalid")
  validateNonemptyBounded item.excerpt maxExcerptBytes "evidence excerpt is empty or too long"

/-- The body of the loop over the evidence, with the ids that were seen and the bytes that
were counted. -/
def validateEvidenceStep (seen : List String × Nat) (item : EvidenceInput) :
    Except ModelError (List String × Nat) := do
  ensure (validCitationId item.citationId = true ∧ item.citationId ∉ seen.1)
    (ModelError.invalidRequest "citation IDs are invalid or duplicated")
  validateEvidenceItem item
  pure (item.citationId :: seen.1,
    seen.2 + (byteLength item.publisher + byteLength item.title + byteLength item.excerpt))

def validateRequest (request : ModelRequest) : Except ModelError Unit := do
  validateNonemptyBounded request.normalizedClaim maxNormalizedClaimBytes
    "normalized claim is empty or too long"
  validateNonemptyBounded request.exactQuote maxExactQuoteBytes
    "exact quote is empty or too long"
  ensure (request.evidence ≠ [] ∧ request.evidence.length ≤ maxEvidenceItems)
    (ModelError.invalidRequest "evidence item count is out of bounds")
  let (_, bytes) ← request.evidence.foldlM validateEvidenceStep ([], 0)
  ensure (bytes ≤ maxEvidenceTextBytes) (ModelError.invalidRequest "evidence payload is too large")

def allowedCitations (request : ModelRequest) : List String :=
  (request.evidence.map EvidenceInput.citationId).dedup

theorem nodup_of_foldlM {evidence : List EvidenceInput} {seen last : List String × Nat}
    (distinct : seen.1.Nodup)
    (folded : evidence.foldlM validateEvidenceStep seen = .ok last) :
    (evidence.map EvidenceInput.citationId ++ seen.1).Nodup := by
  induction evidence generalizing seen with
  | nil => exact distinct
  | cons item rest ih =>
    rw [foldlM_cons, bind_eq_ok_iff] at folded
    obtain ⟨next, step, restFolded⟩ := folded
    simp only [validateEvidenceStep, bind_eq_ok_iff, ensure_eq_ok_iff, Data.pure_eq_ok_iff] at step
    obtain ⟨_, ⟨-, isNew⟩, _, -, rfl⟩ := step
    have restNodup := ih (nodup_cons.mpr ⟨isNew, distinct⟩) restFolded
    exact perm_middle.nodup_iff.mp restNodup

/-- The citation ids of a valid request are distinct. -/
theorem nodup_of_validateRequest {request : ModelRequest}
    (valid : validateRequest request = .ok ⟨⟩) :
    (request.evidence.map EvidenceInput.citationId).Nodup := by
  simp only [validateRequest, bind_eq_ok_iff] at valid
  obtain ⟨_, -, _, -, _, -, last, folded, -⟩ := valid
  simpa using nodup_of_foldlM nodup_nil folded

def lowercase (text : String) : String :=
  String.ofList (text.toList.map Char.toLower)

/-- The words of a text in lower case. -/
def wordsOf (text : String) : List String :=
  ((text.toList.splitOnP fun c => !c.isAlphanum).filter (!·.isEmpty)).map fun word =>
    lowercase (String.ofList word)

def containsAny (words candidates : List String) : Bool :=
  candidates.any fun candidate => words.contains candidate

def organizationWords : List String :=
  ["business", "businesses", "companies", "company", "corporation", "corporations", "employer",
    "employers", "enterprise", "enterprises", "firm", "firms", "organisation", "organisations",
    "organization", "organizations"]

def sizeWords : List String :=
  ["biggest", "bigger", "largest", "larger", "size", "smallest", "smaller"]

def metricWords : List String :=
  ["assets", "asset", "cap", "capitalization", "customer", "customers", "earnings", "employee",
    "employees", "headcount", "income", "location", "locations", "marketcap", "profit", "profits",
    "revenue", "revenues", "sales", "store", "stores", "turnover", "user", "users", "valuation",
    "workforce"]

def dateWords : List String :=
  ["current", "currently", "latest", "now", "today"]

/-- A year from 1900 to 2200. -/
def isYear (word : String) : Bool :=
  byteLength word == 4 && word.toNat?.any fun year => 1900 ≤ year && year ≤ 2200

def isAmbiguousOrganizationSizeClaim (claim : String) : Bool :=
  let words := wordsOf claim
  if !containsAny words organizationWords || !containsAny words sizeWords then false
  else
    let hasMetric := containsAny words metricWords
    let hasDate := containsAny words dateWords || words.any isYear
    !hasMetric || !hasDate

def claimOutputConstraint (request : ModelRequest) : ClaimOutputConstraint :=
  if isAmbiguousOrganizationSizeClaim request.normalizedClaim ||
      isAmbiguousOrganizationSizeClaim request.exactQuote then .ambiguousOrganizationSize
  else .general

/-!
## Drafts of the fact-check model

How the draft is read from the one tool call of a reply, and the checks that it passes
before an assessment is made of it.
-/

open Data (matchTails)
open Formats (Value)

def liveFactCheckToolName : String := "submit_live_fact_check"
def maxConclusionBytes : Nat := 280
def maxSectionItems : Nat := 4
def maxTotalSectionItems : Nat := 8
def maxSectionTextBytes : Nat := 500
def maxTotalSectionTextBytes : Nat := 2400
def maxQualityRationaleBytes : Nat := 600

/-- The fields of a struct that has no optional ones, from an object or from an array in
the order of the fields. -/
def structFields (names : List String) : Value → Option (List Value)
  | .object fields =>
    if fields.all fun field => names.contains field.1 then names.mapM (fields.lookup ·)
    else none
  | .array elements => if elements.length = names.length then some elements else none
  | _ => none

/-- A variant without data, by its name or as an object that maps its name to null. -/
def unitVariant {α : Type} (variants : List (String × α)) : Value → Option α
  | .string name => variants.lookup name
  | .object [(name, .null)] => variants.lookup name
  | _ => none

def asBool : Value → Option Bool
  | .bool value => some value
  | _ => none

def asStrings (value : Value) : Option (List String) :=
  value.asArray.bind fun elements => elements.mapM Value.asStr

def confidenceNames : List (String × CanonicalConfidence) :=
  [("low", .low), ("medium", .medium), ("high", .high)]

def stanceNames : List (String × EvidenceStance) :=
  [("supports", .supports), ("contradicts", .contradicts), ("qualifies", .qualifies),
    ("conflicts", .conflicts), ("neutral", .neutral)]

def authorityNames : List (String × SourceAuthority) :=
  [("authoritative", .authoritative), ("credible", .credible), ("limited", .limited),
    ("unknown", .unknown)]

def directnessNames : List (String × SourceDirectness) :=
  [("direct", .direct), ("indirect", .indirect)]

def CitedStatement.fromValue (value : Value) : Option CitedStatement :=
  (structFields ["text", "citationIds"] value).bind fun fields =>
    match fields with
    | [text, citationIds] => do
      let text ← text.asStr
      let citationIds ← asStrings citationIds
      pure { text, citationIds }
    | _ => none

def SourceAssessment.fromValue (value : Value) : Option SourceAssessment :=
  (structFields ["citationId", "stance", "qualityScore", "qualityRationale", "authority",
      "directness", "addressesClaim", "timeScopeMatch"] value).bind fun fields =>
    match fields with
    | [citationId, stance, qualityScore, qualityRationale, authority, directness, addressesClaim,
        timeScopeMatch] => do
        let citationId ← citationId.asStr
        let stance ← unitVariant stanceNames stance
        let qualityScore ← qualityScore.asF64
        let qualityRationale ← qualityRationale.asStr
        let authority ← unitVariant authorityNames authority
        let directness ← unitVariant directnessNames directness
        let addressesClaim ← asBool addressesClaim
        let timeScopeMatch ← asBool timeScopeMatch
        pure { citationId, stance, qualityScore, qualityRationale, authority, directness,
               addressesClaim, timeScopeMatch }
    | _ => none

def statementsFrom (value : Value) : Option (List CitedStatement) :=
  value.asArray.bind fun elements => elements.mapM CitedStatement.fromValue

def draftFields : List String :=
  ["confidence", "conclusion", "conclusionCitationIds", "statements", "supports",
    "contradictions", "caveats", "limitations", "sources", "changeExplanation"]

/-- `serde_json::from_value`; only the explanation may be left out. -/
def Draft.fromArguments (fields : JsonObject) : Option Draft :=
  if fields.all fun field => draftFields.contains field.1 then do
    let confidence ← (fields.lookup "confidence").bind (unitVariant confidenceNames)
    let conclusion ← (fields.lookup "conclusion").bind Value.asStr
    let conclusionCitationIds ← (fields.lookup "conclusionCitationIds").bind asStrings
    let statements ← (fields.lookup "statements").bind statementsFrom
    let supports ← (fields.lookup "supports").bind statementsFrom
    let contradictions ← (fields.lookup "contradictions").bind statementsFrom
    let caveats ← (fields.lookup "caveats").bind statementsFrom
    let limitations ← (fields.lookup "limitations").bind statementsFrom
    let sources ← ((fields.lookup "sources").bind Value.asArray).bind
      (List.mapM SourceAssessment.fromValue)
    let changeExplanation ←
      match fields.lookup "changeExplanation" with
      | none | some .null => some none
      | some value => (CitedStatement.fromValue value).map some
    pure { confidence, conclusion, conclusionCitationIds, statements, supports, contradictions,
           caveats, limitations, sources, changeExplanation }
  else none

/-- The loop over the content of a reply, with the arguments of the calls of the tool and
whether there is other output. -/
def ReplyContent.collect (toolName : String) (found : List JsonObject × Bool) :
    ReplyContent → List JsonObject × Bool
  | .toolRequest (.ok call) =>
    if call.name = toolName then
      match call.arguments with
      | some arguments => (found.1 ++ [arguments], found.2)
      | none => (found.1, true)
    else (found.1, true)
  | .toolRequest (.error _) => (found.1, true)
  | .text content => if isBlank content then found else (found.1, true)
  | .other => (found.1, true)

/-- The arguments of the only call in a reply. -/
def soleArguments (toolName : String) (message : List ReplyContent) : Option JsonObject :=
  match message.foldl (ReplyContent.collect toolName) ([], false) with
  | ([arguments], false) => some arguments
  | _ => none

def isCitationIdCharacter (c : Char) : Bool :=
  c.isAlphanum || c == '_'

/-- A citation id that stands in the text between characters of other words. -/
def citesInline (text id : List Char) : Bool :=
  (matchTails id text).any fun behind =>
    let before := text.take (text.length - (id.length + behind.length))
    !before.getLast?.any isCitationIdCharacter && !behind.head?.any isCitationIdCharacter

def containsInlineCitation (text : String) (allowed : List String) : Bool :=
  text.toList.any (['[', ']', '【', '】'].contains ·) ||
    allowed.any fun id => citesInline (lowercase text).toList (lowercase id).toList

/-- The ids are distinct and allowed. -/
def CitesOnly (allowed ids : List String) : Prop :=
  (∀ id ∈ ids, id ∈ allowed) ∧ ids.Nodup

instance (allowed ids : List String) : Decidable (CitesOnly allowed ids) :=
  inferInstanceAs (Decidable (_ ∧ _))

def validateCitedStatement (allowed : List String) (statement : CitedStatement) :
    Except ModelError Unit := do
  ensure (isBlank statement.text = false ∧ byteLength statement.text ≤ maxSectionTextBytes ∧
      containsInlineCitation statement.text allowed = false) ModelError.invalidModelResponse
  ensure (statement.citationIds ≠ [] ∧ statement.citationIds.length ≤ 4)
    ModelError.invalidModelResponse
  ensure (CitesOnly allowed statement.citationIds) ModelError.invalidModelResponse

/-- The number of statements and of the bytes of their texts. -/
def validateCitedStatements (allowed : List String) (statements : List CitedStatement) :
    Except ModelError (Nat × Nat) := do
  ensure (statements.length ≤ maxSectionItems) ModelError.invalidModelResponse
  statements.forM (validateCitedStatement allowed)
  pure (statements.length, (statements.map fun statement => byteLength statement.text).sum)

/-- The source that a citation names. -/
def sourceById (sources : List SourceAssessment) (id : String) : Option SourceAssessment :=
  sources.find? fun source => source.citationId = id

/-- Every citation names a source, of a stance that is admitted. -/
def validateSources (sources : List SourceAssessment) (admits : EvidenceStance → Bool)
    (statements : List CitedStatement) : Except ModelError Unit :=
  statements.forM fun statement => statement.citationIds.forM fun id =>
    match sourceById sources id with
    | none => .error .invalidModelResponse
    | some source => ensure (admits source.stance = true) .invalidModelResponse

def validateStatementSources (sources : List SourceAssessment)
    (requiredStance : Option EvidenceStance) (statements : List CitedStatement) :
    Except ModelError Unit :=
  validateSources sources (fun stance => requiredStance.all (stance == ·)) statements

def validateCaveatSources (sources : List SourceAssessment) (statements : List CitedStatement) :
    Except ModelError Unit :=
  validateSources sources (fun stance => stance == .qualifies || stance == .conflicts) statements

def validSource (allowed : List String) (source : SourceAssessment) : Prop :=
  source.citationId ∈ allowed ∧ 0 ≤ source.qualityScore ∧ source.qualityScore ≤ 1 ∧
    isBlank source.qualityRationale = false ∧
    byteLength source.qualityRationale ≤ maxQualityRationaleBytes ∧
    (source.stance = .neutral ∨ source.addressesClaim = true)

instance (allowed : List String) : DecidablePred (validSource allowed) := fun _ =>
  inferInstanceAs (Decidable (_ ∧ _))

def Draft.sections (draft : Draft) : List (List CitedStatement) :=
  [draft.statements, draft.supports, draft.contradictions, draft.caveats, draft.limitations]

/-- The checks of `parse_draft`, in their order. -/
def validateDraft (allowed : List String) (stage : ModelStage) (draft : Draft) :
    Except ModelError Unit := do
  ensure (isBlank draft.conclusion = false ∧ byteLength draft.conclusion ≤ maxConclusionBytes ∧
      containsInlineCitation draft.conclusion allowed = false) ModelError.invalidModelResponse
  ensure (draft.conclusionCitationIds.length ≤ 4) ModelError.invalidModelResponse
  ensure (CitesOnly allowed draft.conclusionCitationIds) ModelError.invalidModelResponse
  ensure (stage = .deep ∨ draft.changeExplanation = none) ModelError.invalidModelResponse
  let counts ← draft.sections.mapM (validateCitedStatements allowed)
  ensure ((counts.map Prod.fst).sum ≤ maxTotalSectionItems ∧
      (counts.map Prod.snd).sum ≤ maxTotalSectionTextBytes ∧
      draft.supports.length + draft.contradictions.length + draft.caveats.length +
        draft.limitations.length ≠ 0) ModelError.invalidModelResponse
  ensure (draft.sources ≠ [] ∧ draft.sources.length ≤ allowed.length)
    ModelError.invalidModelResponse
  ensure ((∀ source ∈ draft.sources, validSource allowed source) ∧
      (draft.sources.map SourceAssessment.citationId).Nodup) ModelError.invalidModelResponse
  ensure (draft.conclusionCitationIds ≠ [] ∨
      (draft.supports = [] ∧ draft.contradictions = [] ∧ draft.caveats = []))
    ModelError.invalidModelResponse
  ensure (∀ id ∈ draft.conclusionCitationIds, (sourceById draft.sources id).isSome = true)
    ModelError.invalidModelResponse
  validateStatementSources draft.sources none draft.statements
  validateStatementSources draft.sources (some .supports) draft.supports
  validateStatementSources draft.sources (some .contradicts) draft.contradictions
  validateCaveatSources draft.sources draft.caveats
  validateStatementSources draft.sources none draft.limitations
  match draft.changeExplanation with
  | none => pure ⟨⟩
  | some explanation => do
    let _ ← validateCitedStatements allowed [explanation]
    validateStatementSources draft.sources none [explanation]

def parseDraft (message : List ReplyContent) (allowed : List String) (stage : ModelStage) :
    Except ModelError Draft := do
  let arguments ← (soleArguments liveFactCheckToolName message).elim
    (.error .invalidModelResponse) .ok
  let draft ← (Draft.fromArguments arguments).elim (.error .invalidModelResponse) .ok
  validateDraft allowed stage draft
  pure draft

end Obelus.Live.FactCheckModel
