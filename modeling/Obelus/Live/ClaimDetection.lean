import Mathlib.Data.List.Chain
import Obelus.Live.ClaimContext
import Obelus.Live.ClaimScheduler.Novelty
import Obelus.Live.ManualSelection

/-!
# Local detection of claims

The turns in order are cut into groups of adjacent fragments.  The statements of a group are
candidates with the group as their context, unless their claim is there already.
-/

namespace Obelus.Live.ClaimDetection

open ClaimContext ManualSelection
open Obelus.Data hiding lookup
open List

/-- What the regular expressions of local detection find: the parts of a joined text between
statement boundaries, kinds of statements, what stands behind each comparison marker, the
slices before and behind the last assertion word before the first marker, and the
capitalized words without clitics. -/
structure DetectionPatterns extends ClaimPatterns where
  texts : TextHost
  splitStatements : CodeUnits → List String
  audioCalibration : String → Bool
  claimComparison : String → Bool
  claimQuantity : String → Bool
  claimAssertion : String → Bool
  behindMarkers : String → List String
  assertionSlices : String → Option (String × String)
  capitalizedWords : String → List String
  timeSensitive : String → Bool

def maxReconstructedCharacters : Nat := 1000

def characters (turns : List ClaimGateTurnSnapshot) : Nat :=
  (turns.map fun turn => (CodeUnits.units turn.text).length).sum

/-- The groups that were flushed, and the one that grows. -/
structure Groups where
  flushed : List (List ClaimGateTurnSnapshot)
  group : List ClaimGateTurnSnapshot

def flush (groups : Groups) : Groups :=
  if groups.group.isEmpty then groups else ⟨groups.flushed ++ [groups.group], []⟩

def breaksBefore (group : List ClaimGateTurnSnapshot) (turn : ClaimGateTurnSnapshot) : Bool :=
  group.getLast?.any fun previous =>
    !fragmentsAreAdjacent previous turn || maxReconstructedTurnChain ≤ group.length ||
      maxReconstructedCharacters < characters group + (CodeUnits.units turn.text).length

def push (groups : Groups) (turn : ClaimGateTurnSnapshot) : Groups :=
  { groups with group := groups.group ++ [turn] }

def addTurn (groups : Groups) (turn : ClaimGateTurnSnapshot) : Groups :=
  let grown := push (if breaksBefore groups.group turn then flush groups else groups) turn
  if endsSentence (trim turn.text) then flush grown else grown

def claimGroups (host : Host) (turns : List ClaimGateTurnSnapshot) :
    List (List ClaimGateTurnSnapshot) :=
  (flush ((orderedTurns host turns).foldl addTurn ⟨[], []⟩)).flushed

structure ReconstructedClaimStatement where
  text : String
  turns : List ClaimGateTurnSnapshot

/-- The claims that candidates are compared with. -/
structure ExistingClaim where
  duplicateKey : String
  normalizedClaim : String

structure Detection where
  existingKeys : List String
  existingNormalized : List String
  candidates : List ClaimCandidate

namespace DetectionPatterns

variable (patterns : DetectionPatterns)

def reconstructedClaimStatements (turns : List ClaimGateTurnSnapshot) :
    List ReconstructedClaimStatement :=
  (claimGroups patterns.host turns).flatMap fun group =>
    let text := group.foldl (fun joined turn =>
      if joined.isEmpty then CodeUnits.trim (CodeUnits.units turn.text)
      else joinTranscriptFragments patterns.texts joined (CodeUnits.units turn.text)) []
    (((patterns.splitStatements text).map trim).filter (· ≠ "")).map fun text => ⟨text, group⟩

def hasConcreteComparisonRightHandSide (value : String) : Bool :=
  (patterns.behindMarkers value).all fun behind =>
    (patterns.normalizedTokens behind).any fun token => !(["a", "an", "the"].contains token)

def hasConcreteComparisonLeftHandSide (value : String) : Bool :=
  (patterns.assertionSlices value).any fun (subject, relation) =>
    !(patterns.normalizedTokens relation).isEmpty &&
      (patterns.normalizedTokens subject).any fun token =>
        token ≠ "&" && !(["a", "an", "he", "i", "it", "she", "that", "the", "these", "they",
          "this", "those", "we"].contains token)

def concreteNamedEntity (text : String) : Bool :=
  (patterns.capitalizedWords text).any fun word =>
    !(["A", "An", "He", "I", "In", "It", "She", "So", "That", "The", "These", "They", "This",
      "Those", "We"].contains word)

def isCandidate (statement : String) : Bool :=
  let comparison := patterns.claimComparison statement
  let quantity := patterns.claimQuantity statement
  let explicitComparison := !(patterns.behindMarkers statement).isEmpty
  if (CodeUnits.units statement).length < 12 || statement.toList.getLast? = some '?' ||
      patterns.audioCalibration statement then false
  else if comparison && !patterns.hasConcreteComparisonRightHandSide statement then false
  else if comparison && explicitComparison && !quantity &&
      !patterns.hasConcreteComparisonLeftHandSide statement then false
  else
    comparison || quantity ||
      (patterns.claimAssertion statement && patterns.concreteNamedEntity statement &&
        endsSentence statement)

def candidateOf (reconstructed : ReconstructedClaimStatement) : ClaimCandidate :=
  let statement := reconstructed.text
  let turns := reconstructed.turns
  let comparison := patterns.claimComparison statement
  let specific := comparison || patterns.claimQuantity statement
  let exactQuote := (patterns.atomicComparisonStatement statement).getD statement
  let normalizedWording := patterns.normalizedClaimWording exactQuote
  { exactQuote
    normalizedClaim := normalizedWording
    contextTurnIds := turns.map ClaimGateTurnSnapshot.id
    speakerId := (turns.find? fun turn => turn.speakerId.getD "" ≠ "").bind (·.speakerId)
    startMs := (turns.head?.map ClaimGateTurnSnapshot.startMs).getD 0
    endMs := (turns.getLast?.map ClaimGateTurnSnapshot.endMs).getD 0
    checkworthy := true
    consequenceScore := if specific then 65 / 100 else 1 / 2
    disputeLikelihoodScore := if comparison then 3 / 4 else 6 / 10
    specificityScore := if specific then 85 / 100 else 65 / 100
    timeSensitive := patterns.timeSensitive statement
    selectionRationale :=
      "Identified locally as a specific factual claim. Evidence research is still required."
    semanticDuplicateKey := stableLiveUuid patterns.host
      ("local-claim-candidate:" ++ patterns.normalized normalizedWording) }

def detectCandidate (requiredTurnIds : List String) (detection : Detection)
    (reconstructed : ReconstructedClaimStatement) : Detection :=
  let candidate := patterns.candidateOf reconstructed
  let normalizedClaim := patterns.normalized candidate.normalizedClaim
  if !(reconstructed.turns.any fun turn => requiredTurnIds.contains turn.id) ||
      !patterns.isCandidate reconstructed.text ||
      detection.existingKeys.contains candidate.semanticDuplicateKey ||
      detection.existingNormalized.contains normalizedClaim then detection
  else
    { existingKeys := detection.existingKeys ++ [candidate.semanticDuplicateKey]
      existingNormalized := detection.existingNormalized ++ [normalizedClaim]
      candidates := detection.candidates ++ [candidate] }

def detectLocalClaimCandidates (turns : List ClaimGateTurnSnapshot)
    (existingClaims : List ExistingClaim) (requiredTurnIds : List String) : List ClaimCandidate :=
  ((patterns.reconstructedClaimStatements turns).foldl (patterns.detectCandidate requiredTurnIds)
    { existingKeys := existingClaims.map ExistingClaim.duplicateKey
      existingNormalized :=
        existingClaims.map fun claim => patterns.normalized claim.normalizedClaim
      candidates := [] }).candidates

end DetectionPatterns

/-- A short run of adjacent turns, which no sentence ends but at its end. -/
structure IsGroup (group : List ClaimGateTurnSnapshot) : Prop where
  notEmpty : group ≠ []
  chain : group.IsChain fun left right => fragmentsAreAdjacent left right
  short : group.length ≤ 3
  few : characters group ≤ 1000 ∨ group.length = 1

/-- The turns that were added stand in the groups. -/
structure Cuts (added : List ClaimGateTurnSnapshot) (groups : Groups) : Prop where
  flatten : groups.flushed.flatten ++ groups.group = added
  flushed : ∀ group ∈ groups.flushed, IsGroup group
  group : groups.group = [] ∨ IsGroup groups.group

variable {added : List ClaimGateTurnSnapshot} {groups : Groups}

theorem cuts_flush (cuts : Cuts added groups) :
    Cuts added (flush groups) ∧ (flush groups).group = [] := by
  unfold flush
  split
  · next isEmpty => exact ⟨cuts, isEmpty_iff.mp isEmpty⟩
  · next notEmpty =>
    have isGroup := cuts.group.resolve_left (mt isEmpty_iff.mpr notEmpty)
    refine ⟨⟨by simpa using cuts.flatten, ?_, Or.inl rfl⟩, rfl⟩
    exact forall_mem_append.mpr ⟨cuts.flushed, forall_mem_singleton.mpr isGroup⟩

theorem cuts_push {turn : ClaimGateTurnSnapshot} (cuts : Cuts added groups)
    (goesOn : breaksBefore groups.group turn = false) :
    Cuts (added ++ [turn]) (push groups turn) := by
  refine ⟨by simp [push, ← cuts.flatten], cuts.flushed, Or.inr ?_⟩
  unfold push
  rcases cuts.group with isEmpty | isGroup
  · rw [isEmpty]
    exact ⟨by simp, List.IsChain.singleton turn, by simp, Or.inr rfl⟩
  · obtain ⟨previous, isLast⟩ := Option.isSome_iff_exists.mp (getLast?_isSome.mpr isGroup.notEmpty)
    simp only [breaksBefore, isLast, Option.any_some, Bool.or_eq_false_iff,
      decide_eq_false_iff_not] at goesOn
    obtain ⟨⟨adjacent, short⟩, few⟩ := goesOn
    constructor
    · simp
    · apply isChain_append.mpr ⟨isGroup.chain, List.IsChain.singleton turn, _⟩
      simpa [isLast] using adjacent
    · rw [length_append]
      exact Nat.lt_of_not_ge short
    · left
      simpa [characters, maxReconstructedCharacters] using few

theorem cuts_addTurn (cuts : Cuts added groups) (turn : ClaimGateTurnSnapshot) :
    Cuts (added ++ [turn]) (addTurn groups turn) := by
  have grown : Cuts (added ++ [turn])
      (push (if breaksBefore groups.group turn then flush groups else groups) turn) := by
    split
    · apply cuts_push (cuts_flush cuts).1
      rw [(cuts_flush cuts).2]
      rfl
    · next goesOn => exact cuts_push cuts (Bool.eq_false_iff.mpr goesOn)
  unfold addTurn
  dsimp only
  split
  · exact (cuts_flush grown).1
  · exact grown

theorem cuts_foldl (turns : List ClaimGateTurnSnapshot) (cuts : Cuts added groups) :
    Cuts (added ++ turns) (turns.foldl addTurn groups) := by
  induction turns generalizing added groups with
  | nil => simpa using cuts
  | cons turn rest ih => simpa using ih (cuts_addTurn cuts turn)

variable (patterns : DetectionPatterns) (existingClaims : List ExistingClaim)
  (requiredTurnIds : List String)

/-- Neither the keys nor the normalized claims are the same. -/
def Apart (first second : ExistingClaim) : Prop :=
  first.duplicateKey ≠ second.duplicateKey ∧
    patterns.normalized first.normalizedClaim ≠ patterns.normalized second.normalizedClaim

def claimOf (candidate : ClaimCandidate) : ExistingClaim :=
  ⟨candidate.semanticDuplicateKey, candidate.normalizedClaim⟩

/-- Each candidate is of a group with a required turn, and makes a claim of its own. -/
structure Detected (groups : List (List ClaimGateTurnSnapshot)) (candidates : List ClaimCandidate) :
    Prop where
  contexts : ∀ candidate ∈ candidates, ∃ group ∈ groups,
    candidate.contextTurnIds = group.map ClaimGateTurnSnapshot.id ∧
      ∃ turn ∈ group, turn.id ∈ requiredTurnIds
  apart : candidates.Pairwise fun first second => Apart patterns (claimOf first) (claimOf second)
  new : ∀ claim ∈ existingClaims, ∀ candidate ∈ candidates, Apart patterns claim (claimOf candidate)

/-- The groups cut the turns in their order, and the candidates are detected in them. -/
structure Reconstructs (turns : List ClaimGateTurnSnapshot) : Prop where
  ids : ((orderedTurns patterns.host turns).map ClaimGateTurnSnapshot.id).Nodup
  flatten : (claimGroups patterns.host turns).flatten = orderedTurns patterns.host turns
  groups : ∀ group ∈ claimGroups patterns.host turns, IsGroup group
  ends : ∀ front turn behind, front ++ turn :: behind ∈ claimGroups patterns.host turns →
    endsSentence (trim turn.text) = true → behind = []
  detected : Detected patterns existingClaims requiredTurnIds (claimGroups patterns.host turns)
    (patterns.detectLocalClaimCandidates turns existingClaims requiredTurnIds)

/-- The loop knows the claims that exist and those of its candidates. -/
structure Detects (groups : List (List ClaimGateTurnSnapshot)) (detection : Detection) : Prop where
  keys : detection.existingKeys =
    (existingClaims ++ detection.candidates.map claimOf).map ExistingClaim.duplicateKey
  normalized : detection.existingNormalized = (existingClaims ++ detection.candidates.map
    claimOf).map fun claim => patterns.normalized claim.normalizedClaim
  detected : Detected patterns existingClaims requiredTurnIds groups detection.candidates

variable {patterns existingClaims requiredTurnIds} {groups : List (List ClaimGateTurnSnapshot)}
  {detection : Detection}

theorem detects_detectCandidate {reconstructed : ReconstructedClaimStatement}
    (isGroup : reconstructed.turns ∈ groups)
    (detects : Detects patterns existingClaims requiredTurnIds groups detection) :
    Detects patterns existingClaims requiredTurnIds groups
      (patterns.detectCandidate requiredTurnIds detection reconstructed) := by
  unfold DetectionPatterns.detectCandidate
  dsimp only
  split
  · exact detects
  · next isNew =>
    simp only [Bool.or_eq_true, not_or] at isNew
    obtain ⟨⟨⟨required, -⟩, newKey⟩, newClaim⟩ := isNew
    have fresh : ∀ claim ∈ existingClaims ++ detection.candidates.map claimOf,
        Apart patterns claim (claimOf (patterns.candidateOf reconstructed)) := by
      intro claim isClaim
      constructor
      · intro same
        have isKnown := mem_map_of_mem (f := ExistingClaim.duplicateKey) isClaim
        rw [← detects.keys, same] at isKnown
        exact absurd isKnown (by simpa [claimOf] using newKey)
      · intro same
        have isKnown := mem_map_of_mem (f := fun claim : ExistingClaim =>
          patterns.normalized claim.normalizedClaim) isClaim
        rw [← detects.normalized, same] at isKnown
        exact absurd isKnown (by simpa [claimOf] using newClaim)
    obtain ⟨fromExisting, fromDetected⟩ := forall_mem_append.mp fresh
    refine ⟨by simp [detects.keys, claimOf], by simp [detects.normalized, claimOf], ?_, ?_, ?_⟩
    · apply forall_mem_append.mpr ⟨detects.detected.contexts, forall_mem_singleton.mpr _⟩
      exact ⟨_, isGroup, rfl, by simpa using required⟩
    · apply pairwise_append.mpr ⟨detects.detected.apart, pairwise_singleton _ _, _⟩
      intro earlier isEarlier candidate isLast
      rw [mem_singleton.mp isLast]
      exact fromDetected _ (mem_map_of_mem isEarlier)
    · intro claim isClaim
      exact forall_mem_append.mpr ⟨detects.detected.new claim isClaim,
        forall_mem_singleton.mpr (fromExisting claim isClaim)⟩

theorem detects_foldl (statements : List ReconstructedClaimStatement)
    (areGroups : ∀ reconstructed ∈ statements, reconstructed.turns ∈ groups)
    (detects : Detects patterns existingClaims requiredTurnIds groups detection) :
    Detects patterns existingClaims requiredTurnIds groups
      (statements.foldl (patterns.detectCandidate requiredTurnIds) detection) := by
  induction statements generalizing detection with
  | nil => exact detects
  | cons reconstructed rest ih =>
    obtain ⟨isGroup, others⟩ := forall_mem_cons.mp areGroups
    exact ih others (detects_detectCandidate isGroup detects)

end Obelus.Live.ClaimDetection
