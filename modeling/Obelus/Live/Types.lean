import Mathlib.Algebra.Order.Ring.Rat

/-!
# Data of a live meeting

The records shared by the modules of the live meeting runtime.  A `Number` is a
finite number of the source language; times are numbers of milliseconds.
Revision numbers are counted from zero and stay natural numbers.
-/

namespace Obelus.Live

/-- A finite number of the source language, without rounding. -/
abbrev Number := ℚ

/-- What the language runtime and the packages outside the repository provide:
version 5 identifiers, locale-dependent comparison of strings (negative, zero
or positive) and lower case, the Unicode properties of letters and numbers, and
the text of a number. -/
structure Host where
  uuidv5 : String → String → String
  localeCompare : String → String → Int
  toLocaleLowerCase : String → String
  isLetterOrNumber : Char → Bool
  numberText : Number → String

inductive TranscriptTurnState
  | partialText
  | final
  | revised
  | superseded
  deriving DecidableEq

inductive SourceKind
  | microphone
  | system
  | mixed
  | text
  deriving DecidableEq

structure TimedWord where
  id : String
  text : String
  startMs : Number
  endMs : Number
  speakerLabel : Option String
  confidence : Option Number
  final : Bool
  deriving DecidableEq

structure TranscriptTurn where
  id : String
  meetingId : String
  transcriptVersionId : String
  provider : String
  providerSessionId : String
  providerTurnId : String
  providerTurnOrder : Number
  revision : Nat
  status : TranscriptTurnState
  speakerId : Option String
  provisionalSpeakerLabel : Option String
  sourceKind : SourceKind
  startMs : Number
  endMs : Number
  text : String
  words : List TimedWord
  utteranceBoundary : Bool
  endOfTurn : Bool
  formatted : Bool
  receivedAtMs : Number
  finalizedAtMs : Option Number
  deriving DecidableEq

structure TranscriptVersion where
  id : String
  revision : Nat
  model : Option String

/-- The part of a meeting artifact that the transcript modules read. -/
structure MeetingArtifact where
  id : String
  startedAtMs : Option Number
  liveTranscriptVersionId : Option String
  versions : List TranscriptVersion

structure SpeakerObservation where
  providerSessionId : String
  providerLabel : String
  speakerId : String
  sourceHint : Option SourceKind
  deriving DecidableEq

structure LiveError where
  code : String
  message : String
  retryable : Bool

/-- The part of a turn the claim gate keeps. -/
structure ClaimGateTurnSnapshot where
  id : String
  speakerId : Option String
  startMs : Number
  endMs : Number
  text : String
  revision : Nat
  sourceKind : SourceKind
  deriving DecidableEq

/-- A transcript turn read at the type of the claim gate. -/
def TranscriptTurn.toSnapshot (turn : TranscriptTurn) : ClaimGateTurnSnapshot where
  id := turn.id
  speakerId := turn.speakerId
  startMs := turn.startMs
  endMs := turn.endMs
  text := turn.text
  revision := turn.revision
  sourceKind := turn.sourceKind

/-- The fields of a claim version that claim detection reads. -/
structure ClaimVersion where
  id : String
  normalizedClaim : String
  segmentIds : List String

/-- The fields of a claim that claim detection reads. -/
structure Claim where
  id : String
  duplicateKey : String
  currentVersionId : String
  versions : List ClaimVersion

def liveUuidNamespace : String := "c6467531-d6b0-4ab3-82d9-8b433531e9d8"

def stableLiveUuid (host : Host) (scope : String) : String :=
  host.uuidv5 ("obelus-live:" ++ scope) liveUuidNamespace

def transcriptTurnKey (providerSessionId turnId : String) : String :=
  providerSessionId ++ ":" ++ turnId

structure ProviderTurnEvent where
  providerSessionId : String
  turnId : String
  turnOrder : Number
  revision : Nat
  transcript : String
  speakerLabel : Option String
  words : List TimedWord
  startMs : Number
  endMs : Number
  utteranceBoundary : Bool
  endOfTurn : Bool
  turnIsFormatted : Bool
  durableFinal : Bool
  receivedAtMs : Number
  deriving DecidableEq

structure SpeakerRevision where
  turnOrder : Number
  speakerLabel : String
  words : List TimedWord

structure ProviderSpeakerRevisionEvent where
  providerSessionId : String
  revisions : List SpeakerRevision

/-- A host with the identifiers that version 5 hashing gives to the names which
the recorded runs of the live modules hash. -/
def recordedHost : Host where
  uuidv5 name _ :=
    if name = "obelus-live:claim-gate-batch:meeting-1:turn-1:0" then
      "61dbeedc-050d-5ebb-9af8-b89a78f9e12a"
    else ""
  localeCompare left right := if left = right then 0 else if left < right then -1 else 1
  toLocaleLowerCase := String.toLower
  isLetterOrNumber := Char.isAlphanum
  numberText number := toString number.num

def recordedTurn : TranscriptTurn where
  id := "turn-1"
  meetingId := "meeting-1"
  transcriptVersionId := "version-1"
  provider := "assemblyai"
  providerSessionId := "session-1"
  providerTurnId := "0"
  providerTurnOrder := 0
  revision := 0
  status := .final
  speakerId := none
  provisionalSpeakerLabel := none
  sourceKind := .mixed
  startMs := 0
  endMs := 1000
  text := "The sky is blue."
  words := []
  utteranceBoundary := false
  endOfTurn := true
  formatted := true
  receivedAtMs := 1000
  finalizedAtMs := some 1000

end Obelus.Live
