import Obelus.Data.Text
import Obelus.Live.TranscriptReconciler

/-!
# Reconciling a refined transcript

The clusters of a refined transcript are mapped to the speakers of the live one, and the
claims whose quotes the refined turns change are listed.  Numbers are compared after tokens
of one code unit and repeated tokens are dropped.
-/

namespace Obelus.Live.Refinement

open Obelus.Data

structure RefinedSegmentInput where
  id : String
  speakerCluster : String
  text : String
  startMs : Number
  endMs : Number
  words : List TimedWord

inductive DisplayNameSource
  | generic
  | manual

structure Speaker where
  id : String
  defaultLabel : String
  displayName : Option String
  displayNameSource : DisplayNameSource
  manualAssignmentLocked : Bool
  sourceHint : Option SourceKind

/-- The fields of a claim version that the reconciliation reads. -/
structure ClaimVersion where
  id : String
  exactQuote : String
  startMs : Option Number
  endMs : Option Number

/-- The fields of a claim that the reconciliation reads. -/
structure Claim where
  id : String
  currentVersionId : String
  versions : List ClaimVersion

structure ReconciledRefinement where
  turns : List TranscriptTurn
  speakers : List Speaker
  ambiguousClusterIds : List String
  materiallyChangedClaimIds : List String

def overlapMs (leftStart leftEnd rightStart rightEnd : Number) : Number :=
  max 0 (min leftEnd rightEnd - max leftStart rightStart)

/-- The distinct tokens of more than one code unit, each at its first occurrence. -/
def normalizedMeaning (host : Host) (text : String) : List String :=
  ((normalizedTokens host text).filter fun token => 1 < (CodeUnits.units token).length).eraseDups

/-- `/\d/.test`. -/
def hasDigit (token : String) : Bool :=
  token.toList.any Char.isDigit

/-- The test behind the comparison of numbers: the texts share too few tokens. -/
def wordingDiffers (host : Host) (before after : String) : Bool :=
  let left := normalizedMeaning host before
  let right := normalizedMeaning host after
  if left.isEmpty || right.isEmpty then trim before ≠ trim after
  else
    let intersection := (left.filter fun token => token ∈ right).length
    let union := (left ++ right).eraseDups.length
    (intersection : ℚ) / union < 68 / 100

def materiallyChangesMeaning (host : Host) (before after : String) : Bool :=
  let leftNumbers := (normalizedMeaning host before).filter hasDigit
  let rightNumbers := (normalizedMeaning host after).filter hasDigit
  if "|".intercalate leftNumbers ≠ "|".intercalate rightNumbers then true
  else wordingDiffers host before after

/-- The speakers of live turns with the time for which they overlap a cluster. -/
def overlapScores (liveTurns : List TranscriptTurn) (segments : List RefinedSegmentInput) :
    JsMap String Number :=
  segments.foldl (fun scores segment =>
    liveTurns.foldl (fun scores turn =>
      match turn.speakerId with
      | none => scores
      | some speakerId =>
        if speakerId = "" then scores
        else scores.set speakerId ((scores.get? speakerId).getD 0 +
          overlapMs segment.startMs segment.endMs turn.startMs turn.endMs)) scores)
    JsMap.empty

/-- The speaker whose turns overlap a cluster clearly more than those of any other. -/
def dominantSpeaker (liveTurns : List TranscriptTurn) (refinedSegments : List RefinedSegmentInput)
    (cluster : String) : Option String :=
  let segments := refinedSegments.filter fun segment => segment.speakerCluster = cluster
  let ranked := (overlapScores liveTurns segments).entries.insertionSort fun left right =>
    right.2 ≤ left.2
  let totalDuration := (segments.map fun segment => segment.endMs - segment.startMs).sum
  match ranked with
  | [] => none
  | best :: others =>
    if max 500 (totalDuration * (45 / 100)) ≤ best.2 ∧
        ∀ runnerUp ∈ others.head?, runnerUp.2 * (14 / 10) ≤ best.2 then
      some best.1
    else none

def refinedSpeakerId (host : Host) (meetingId cluster : String) : String :=
  stableLiveUuid host ("refined-speaker:" ++ meetingId ++ ":" ++ cluster)

def speakerLabel (number : Nat) : String :=
  "Speaker " ++ toString number

/-- The speaker made for a cluster without a dominant speaker. -/
def refinedSpeaker (host : Host) (meetingId cluster : String) (nextNumber : Nat) : Speaker where
  id := refinedSpeakerId host meetingId cluster
  defaultLabel := speakerLabel nextNumber
  displayName := none
  displayNameSource := .generic
  manualAssignmentLocked := false
  sourceHint := none

structure ClusterMapping where
  mapping : JsMap String String
  ambiguous : List String
  speakers : List Speaker

/-- The body of the loop of `mapClusters`. -/
def mapCluster (host : Host) (meetingId : String) (liveTurns : List TranscriptTurn)
    (refinedSegments : List RefinedSegmentInput) (mapped : ClusterMapping) (cluster : String) :
    ClusterMapping :=
  match dominantSpeaker liveTurns refinedSegments cluster with
  | some speakerId => { mapped with mapping := mapped.mapping.set cluster speakerId }
  | none =>
    let speaker := refinedSpeaker host meetingId cluster (mapped.speakers.length + 1)
    { mapping := mapped.mapping.set cluster speaker.id
      ambiguous := mapped.ambiguous ++ [cluster]
      speakers := mapped.speakers ++ [speaker] }

def clustersOf (refinedSegments : List RefinedSegmentInput) : List String :=
  (refinedSegments.map RefinedSegmentInput.speakerCluster).eraseDups

def mapClusters (host : Host) (meetingId : String) (liveTurns : List TranscriptTurn)
    (refinedSegments : List RefinedSegmentInput) (speakers : List Speaker) : ClusterMapping :=
  (clustersOf refinedSegments).foldl (mapCluster host meetingId liveTurns refinedSegments)
    ⟨JsMap.empty, [], speakers⟩

def refinedTurn (host : Host) (now : Number) (meetingId refinedVersionId : String)
    (mapping : JsMap String String) (segment : RefinedSegmentInput) (index : Nat) :
    TranscriptTurn where
  id := stableLiveUuid host
    ("refined-turn:" ++ meetingId ++ ":" ++ refinedVersionId ++ ":" ++ segment.id)
  meetingId
  transcriptVersionId := refinedVersionId
  provider := "assemblyai"
  providerSessionId := refinedVersionId
  providerTurnId := segment.id
  providerTurnOrder := index
  revision := 0
  status := .final
  speakerId := mapping.get? segment.speakerCluster
  provisionalSpeakerLabel := some segment.speakerCluster
  sourceKind := .mixed
  startMs := segment.startMs
  endMs := segment.endMs
  text := segment.text
  words := segment.words.map fun word => { word with final := true }
  utteranceBoundary := true
  endOfTurn := true
  formatted := true
  receivedAtMs := now
  finalizedAtMs := some now

/-- What the turns that overlap a time range read. -/
def refinedQuote (turns : List TranscriptTurn) (startMs endMs : Number) : String :=
  trim (" ".intercalate ((turns.filter fun turn =>
    0 < overlapMs turn.startMs turn.endMs startMs endMs).map TranscriptTurn.text))

def Claim.currentVersion (claim : Claim) : Option ClaimVersion :=
  claim.versions.find? fun candidate => candidate.id = claim.currentVersionId

/-- The identifier of a claim whose quote the turns change. -/
def changedClaimId (host : Host) (turns : List TranscriptTurn) (claim : Claim) : Option String := do
  let version ← claim.currentVersion
  let startMs ← version.startMs
  let endMs ← version.endMs
  let quote := refinedQuote turns startMs endMs
  if quote ≠ "" ∧ materiallyChangesMeaning host version.exactQuote quote then some claim.id
  else none

def reconcileRefinement (host : Host) (now : Number) (meetingId refinedVersionId : String)
    (liveTurns : List TranscriptTurn) (refinedSegments : List RefinedSegmentInput)
    (speakers : List Speaker) (claims : List Claim) : ReconciledRefinement :=
  let mapped := mapClusters host meetingId liveTurns refinedSegments speakers
  let turns := refinedSegments.mapIdx fun index segment =>
    refinedTurn host now meetingId refinedVersionId mapped.mapping segment index
  { turns
    speakers := mapped.speakers
    ambiguousClusterIds := mapped.ambiguous
    materiallyChangedClaimIds := claims.filterMap (changedClaimId host turns) }

end Obelus.Live.Refinement
