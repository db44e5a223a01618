import Mathlib.Data.List.Chain
import Mathlib.Data.List.Dedup
import Obelus.Data.Text
import Obelus.Live.FactCheckModel.Draft

/-!
# The text of a claim

The text of the turns that a claim cites, in which what a turn repeats of the end of the
turns before it stands once, and the search for the quote in it.  Places are counted in
characters.
-/

namespace Obelus.Live.FactCheckModel

open Data (joinWords matchTails slice tokenSpans wordsAt)
open Meetings.Validation (isWhitespace)
open ModelError (invalidModelResponse invalidRequest)

/-- The Unicode tables: the compatibility form of a text, the lower case of a character and
of a text, and whether a character is a letter or a number. -/
structure Unicode where
  nfkc : List Char → List Char
  charLowercase : Char → List Char
  toLowercase : List Char → List Char
  isAlphanumeric : Char → Bool

inductive DetectionSourceKind
  | microphone
  | system
  | mixed
  deriving DecidableEq

structure DetectionTurn where
  id : String
  speakerId : Option String
  sourceKind : Option DetectionSourceKind
  startMs : Nat
  endMs : Nat
  text : String

def splitWhitespace (text : List Char) : List (List Char) :=
  wordsAt isWhitespace text

def whitespaceTokenSpans (text : List Char) : List (Nat × Nat) :=
  tokenSpans isWhitespace text

def normalizedBoundaryToken (unicode : Unicode) (token : List Char) : List Char :=
  ((unicode.nfkc token).flatMap unicode.charLowercase).filter fun c =>
    unicode.isAlphanumeric c || c == '&'

/-- Two tokens that are the same word. -/
def sameToken (unicode : Unicode) (left right : List Char) : Bool :=
  !(normalizedBoundaryToken unicode left).isEmpty &&
    normalizedBoundaryToken unicode left == normalizedBoundaryToken unicode right

/-- The numbers from the first one down to one. -/
def countdown : Nat → List Nat
  | 0 => []
  | n + 1 => (n + 1) :: countdown n

def longestBoundaryTokenOverlap (unicode : Unicode) (left : List Char)
    (leftTokens : List (Nat × Nat)) (right : List Char) (rightTokens : List (Nat × Nat)) : Nat :=
  let maximum := min (min leftTokens.length rightTokens.length) 8
  ((countdown maximum).find? fun count =>
    ((leftTokens.drop (leftTokens.length - count)).zip (rightTokens.take count)).all fun tokens =>
      sameToken unicode (slice left tokens.1) (slice right tokens.2)).getD 0

/-- The turn of the loop of `overlap_aware_claim_text`. -/
def appendFragment (unicode : Unicode) (state : List Char × List (Nat × Nat)) (text : List Char) :
    List Char × List (Nat × Nat) :=
  let (joined, ranges) := state
  let fragment := joinWords ' ' (splitWhitespace text)
  if joined.isEmpty then (joined ++ fragment, ranges ++ [(0, (joined ++ fragment).length)])
  else
    let joinedTokens := whitespaceTokenSpans joined
    let fragmentTokens := whitespaceTokenSpans fragment
    let overlap :=
      longestBoundaryTokenOverlap unicode joined joinedTokens fragment fragmentTokens
    let overlapStart :=
      if overlap = 0 then none
      else (joinedTokens[joinedTokens.length - overlap]?).map Prod.fst
    let remainderStart :=
      if overlap = 0 then 0 else ((fragmentTokens[overlap - 1]?).map Prod.snd).getD 0
    let remainder := Formats.trimStart (fragment.drop remainderStart)
    if remainder.isEmpty then
      (joined, ranges ++ [(overlapStart.getD joined.length, joined.length)])
    else
      let appendedStart := joined.length + 1
      let joined := joined ++ ' ' :: remainder
      (joined, ranges ++ [(overlapStart.getD appendedStart, joined.length)])

def overlapAwareClaimText (unicode : Unicode) (turns : List DetectionTurn) :
    List Char × List (Nat × Nat) :=
  (turns.map fun turn => turn.text.toList).foldl (appendFragment unicode) ([], [])

/-- The occurrence from the first place up to the second shares a place with each range. -/
def overlapsAll (ranges : List (Nat × Nat)) (start stop : Nat) : Bool :=
  ranges.all fun range => start < range.2 && range.1 < stop

def quoteIsBackedByEveryTurn (unicode : Unicode) (quote : List Char)
    (turns : List DetectionTurn) : Bool :=
  let joined := (overlapAwareClaimText unicode turns).1
  let ranges := (overlapAwareClaimText unicode turns).2
  (matchTails quote joined).any fun behind =>
    let stop := joined.length - behind.length
    overlapsAll ranges (stop - quote.length) stop

/-!
## Claim detection

The turns that are sent to the model, the claims that it finds in them and the checks that
these pass.
-/

open Data (ensure joinWords)
open Formats (Value JsonObject)
open Meetings.Validation (byteLength isWhitespace)

def liveClaimDetectionToolName : String := "submit_live_claim_detection"
def maxRequestIdBytes : Nat := 80
def maxClaimDetectionTurns : Nat := 12
def maxClaimDetectionTurnTextBytes : Nat := 2000
def maxClaimDetectionTotalTextBytes : Nat := 12000
def maxExistingClaimKeys : Nat := 50
def maxExistingClaimKeyBytes : Nat := 256
def maxDetectedClaims : Nat := 4
def maxDetectedClaimSegments : Nat := 4
def maxDetectedClaimTurnGapMs : Nat := 2500
def maxSelectionRationaleBytes : Nat := 500

structure DetectionRequest where
  turns : List DetectionTurn
  requiredTurnIds : List String
  existingClaimKeys : List String

structure DetectionCandidate where
  exactQuote : String
  normalizedClaim : String
  segmentIds : List String
  checkworthy : Bool
  consequenceScore : ℚ
  disputeLikelihoodScore : ℚ
  specificityScore : ℚ
  timeSensitive : Bool
  selectionRationale : String
  deriving DecidableEq

def validWorkerRequestId (value : String) : Bool :=
  !value.isEmpty && byteLength value ≤ maxRequestIdBytes &&
    value.toList.all fun c => c.isAlphanum || c == '-' || c == '_'

/-- The body of the loop over the turns, with the ids that were seen and the bytes that were
counted. -/
def validateTurnStep (seen : List String × Nat) (turn : DetectionTurn) :
    Except ModelError (List String × Nat) := do
  ensure (validWorkerRequestId turn.id = true ∧ turn.id ∉ seen.1)
    (invalidRequest "claim detection turn IDs are invalid or duplicated")
  ensure (∀ id ∈ turn.speakerId, validWorkerRequestId id = true)
    (invalidRequest "claim detection speaker ID is invalid")
  ensure (turn.startMs ≤ turn.endMs)
    (invalidRequest "claim detection turn timestamps are invalid")
  validateNonemptyBounded turn.text maxClaimDetectionTurnTextBytes
    "claim detection turn text is empty or too long"
  pure (turn.id :: seen.1, seen.2 + byteLength turn.text)

def validateKeyStep (seen : List String) (key : String) : Except ModelError (List String) := do
  validateNonemptyBounded key maxExistingClaimKeyBytes "existing claim key is empty or too long"
  ensure (key ∉ seen) (invalidRequest "existing claim keys are duplicated")
  pure (key :: seen)

def validateClaimDetectionRequest (request : DetectionRequest) : Except ModelError Unit := do
  ensure (request.turns ≠ [] ∧ request.turns.length ≤ maxClaimDetectionTurns)
    (invalidRequest "claim detection turn count is out of bounds")
  let (turnIds, bytes) ← request.turns.foldlM validateTurnStep ([], 0)
  ensure (bytes ≤ maxClaimDetectionTotalTextBytes)
    (invalidRequest "claim detection transcript is too large")
  ensure (request.requiredTurnIds ≠ [] ∧
      request.requiredTurnIds.length ≤ request.turns.length)
    (invalidRequest "required claim detection turn count is out of bounds")
  ensure (CitesOnly turnIds request.requiredTurnIds)
    (invalidRequest "required claim detection turn IDs are invalid or duplicated")
  ensure (request.existingClaimKeys.length ≤ maxExistingClaimKeys)
    (invalidRequest "existing claim key count is out of bounds")
  let _ ← request.existingClaimKeys.foldlM validateKeyStep []
  pure ⟨⟩

def DetectionCandidate.fromValue (value : Value) : Option DetectionCandidate :=
  (structFields ["exactQuote", "normalizedClaim", "segmentIds", "checkworthy",
      "consequenceScore", "disputeLikelihoodScore", "specificityScore", "timeSensitive",
      "selectionRationale"] value).bind fun fields =>
    match fields with
    | [exactQuote, normalizedClaim, segmentIds, checkworthy, consequenceScore,
        disputeLikelihoodScore, specificityScore, timeSensitive, selectionRationale] => do
        let exactQuote ← exactQuote.asStr
        let normalizedClaim ← normalizedClaim.asStr
        let segmentIds ← asStrings segmentIds
        let checkworthy ← asBool checkworthy
        let consequenceScore ← consequenceScore.asF64
        let disputeLikelihoodScore ← disputeLikelihoodScore.asF64
        let specificityScore ← specificityScore.asF64
        let timeSensitive ← asBool timeSensitive
        let selectionRationale ← selectionRationale.asStr
        pure { exactQuote, normalizedClaim, segmentIds, checkworthy, consequenceScore,
               disputeLikelihoodScore, specificityScore, timeSensitive, selectionRationale }
    | _ => none

def candidatesFromArguments (fields : JsonObject) : Option (List DetectionCandidate) :=
  if fields.all fun field => field.1 == "candidates" then
    ((fields.lookup "candidates").bind Value.asArray).bind
      (List.mapM DetectionCandidate.fromValue)
  else none

def claimDetectionTurnAlias (index : Nat) : String :=
  "T" ++ toString (index + 1)

/-- The id of the turn that an alias stands for. -/
def realTurnId (request : DetectionRequest) (turnAlias : String) : Option String :=
  ((List.range request.turns.length).find? fun index =>
    claimDetectionTurnAlias index = turnAlias).bind fun index =>
      (request.turns[index]?).map DetectionTurn.id

def resolveAliases (request : DetectionRequest) (candidate : DetectionCandidate) :
    Option DetectionCandidate :=
  (candidate.segmentIds.mapM (realTurnId request)).map fun segmentIds =>
    { candidate with segmentIds }

/-- The candidates of a reply, with the ids of the turns that they cite. -/
def readCandidates (message : List ReplyContent) (request : DetectionRequest) :
    Option (List DetectionCandidate) :=
  ((soleArguments liveClaimDetectionToolName message).bind candidatesFromArguments).bind
    (List.mapM (resolveAliases request))

def questionOpenings : List String :=
  ["what ", "when ", "where ", "which ", "who ", "whose ", "why ", "how ", "can you ",
    "could you ", "would you ", "do you ", "did you ", "does it ", "is there ", "are there "]

def obviousQuestion (text : String) : Bool :=
  let trimmed := Formats.trim text.toList
  trimmed.getLast? == some '?' ||
    questionOpenings.any fun opening => opening.toList.isPrefixOf (trimmed.map Char.toLower)

def nonClaimOpenings : List String :=
  ["hello ", "hi ", "good morning", "good afternoon", "good evening", "thank you ",
    "thanks for ", "mic check", "microphone check", "audio check", "testing one two"]

def obviousNonClaim (unicode : Unicode) (text : String) : Bool :=
  let words := Data.wordsAt (fun c => !unicode.isAlphanumeric c) text.toList
  if words.length < 3 then true
  else
    let normalized := joinWords ' ' (words.map (List.map Char.toLower))
    normalized == "thank you".toList ||
      nonClaimOpenings.any fun opening => opening.toList.isPrefixOf normalized

def normalizedDetectionText (unicode : Unicode) (text : String) : List Char :=
  unicode.toLowercase (joinWords ' ' (splitWhitespace text.toList))

/-- A text with something in it, nothing to trim and not too many bytes. -/
def IsTidy (text : String) (maximumBytes : Nat) : Prop :=
  isBlank text = false ∧ byteLength text ≤ maximumBytes ∧ Formats.trim text.toList = text.toList

instance (text : String) (maximumBytes : Nat) : Decidable (IsTidy text maximumBytes) :=
  inferInstanceAs (Decidable (_ ∧ _))

def ValidScore (score : ℚ) : Prop :=
  0 ≤ score ∧ score ≤ 1

instance : DecidablePred ValidScore := fun _ =>
  inferInstanceAs (Decidable (_ ∧ _))

/-- The checks of the fields of a candidate on their own. -/
def PassesFields (unicode : Unicode) (candidate : DetectionCandidate) : Prop :=
  IsTidy candidate.exactQuote maxExactQuoteBytes ∧
    IsTidy candidate.normalizedClaim maxNormalizedClaimBytes ∧
    IsTidy candidate.selectionRationale maxSelectionRationaleBytes ∧
    candidate.checkworthy = true ∧
    obviousQuestion candidate.exactQuote = false ∧
    obviousNonClaim unicode candidate.exactQuote = false ∧
    obviousQuestion candidate.normalizedClaim = false ∧
    obviousNonClaim unicode candidate.normalizedClaim = false ∧
    ValidScore candidate.consequenceScore ∧ ValidScore candidate.disputeLikelihoodScore ∧
    ValidScore candidate.specificityScore ∧ 1 / 2 ≤ candidate.specificityScore ∧
    (9 / 20 ≤ candidate.consequenceScore ∨ 11 / 20 ≤ candidate.disputeLikelihoodScore)

instance (unicode : Unicode) : DecidablePred (PassesFields unicode) := fun _ =>
  inferInstanceAs (Decidable (_ ∧ _))

/-- The place of a turn in the request; the last one, should several have the id. -/
def turnPosition (request : DetectionRequest) (id : String) : Option Nat :=
  (List.range request.turns.length).reverse.find? fun index =>
    (request.turns[index]?).any fun turn => turn.id = id

/-- The checks of the turns that a candidate cites; pairs of neighbours are `windows(2)`. -/
def validateSegments (unicode : Unicode) (request : DetectionRequest)
    (candidate : DetectionCandidate) : Except ModelError Unit := do
  ensure (candidate.segmentIds ≠ [] ∧ candidate.segmentIds.length ≤ maxDetectedClaimSegments)
    invalidModelResponse
  ensure candidate.segmentIds.Nodup invalidModelResponse
  let positions ← (candidate.segmentIds.mapM (turnPosition request)).elim
    (.error .invalidModelResponse) .ok
  ensure (positions.IsChain (fun first second => second = first + 1) ∧
      ∃ id ∈ candidate.segmentIds, id ∈ request.requiredTurnIds) invalidModelResponse
  let cited := positions.filterMap (request.turns[·]?)
  ensure ((cited.filterMap DetectionTurn.speakerId).dedup.length ≤ 1 ∧
      (cited.filterMap DetectionTurn.sourceKind).dedup.length ≤ 1 ∧
      cited.IsChain (fun first second =>
        second.startMs - first.endMs ≤ maxDetectedClaimTurnGapMs) ∧
      quoteIsBackedByEveryTurn unicode candidate.exactQuote.toList cited = true)
    invalidModelResponse

def existingKeys (unicode : Unicode) (request : DetectionRequest) : List (List Char) :=
  request.existingClaimKeys.map (normalizedDetectionText unicode)

/-- The body of the loop over the candidates, with the claims and the quotes that were seen. -/
def validateCandidateStep (unicode : Unicode) (request : DetectionRequest)
    (seen : List (List Char) × List (List Char)) (candidate : DetectionCandidate) :
    Except ModelError (List (List Char) × List (List Char)) := do
  ensure (PassesFields unicode candidate) invalidModelResponse
  let normalizedClaim := normalizedDetectionText unicode candidate.normalizedClaim
  let exactQuote := normalizedDetectionText unicode candidate.exactQuote
  ensure ((existingKeys unicode request).contains normalizedClaim = false ∧
      seen.1.contains normalizedClaim = false ∧ seen.2.contains exactQuote = false)
    invalidModelResponse
  validateSegments unicode request candidate
  pure (normalizedClaim :: seen.1, exactQuote :: seen.2)

def validateClaimDetectionCandidates (unicode : Unicode) (request : DetectionRequest)
    (candidates : List DetectionCandidate) : Except ModelError Unit := do
  ensure (candidates.length ≤ maxDetectedClaims) invalidModelResponse
  let _ ← candidates.foldlM (validateCandidateStep unicode request) ([], [])
  pure ⟨⟩

def parseClaimDetectionDraft (unicode : Unicode) (message : List ReplyContent)
    (request : DetectionRequest) : Except ModelError (List DetectionCandidate) := do
  let candidates ← (readCandidates message request).elim (.error .invalidModelResponse) .ok
  validateClaimDetectionCandidates unicode request candidates
  pure candidates

end Obelus.Live.FactCheckModel
