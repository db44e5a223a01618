import Mathlib.Algebra.Order.Field.Rat
import Mathlib.Data.List.Dedup
import Obelus.Live.ClaimScheduler.Budgets

/-!
# Committed claims are new

Three relations say that two wordings make the same claim: the duplicate key, the normalized
text, and a source segment in common with tokens that mostly agree.  The loop of
`acceptedCandidates` compares every candidate with the claims listed before `detect` was
called and with the candidates it accepted.

The claims listed when `commitBatch` is called are not looked at.  A claim that was added or
changed while `detect` was pending can be committed a second time.
-/

namespace Obelus.Live

open Obelus.Data List

structure ComparisonParts where
  subject : List String
  relation : List String
  object : List String

/-- What the regular expressions of the claim gate find in a text, and the Unicode form it
is brought to.  The slices of a comparison are what stands before its last assertion word,
from there to the comparison marker, and behind the marker. -/
structure ClaimPatterns where
  host : Host
  nfkc : String → String
  atomicComparisonStatement : String → Option String
  comparisonSlices : String → Option (String × String × String)
  normalizedClaimWording : String → String

/-- Some place of the first sequence starts the second one. -/
def tokenSequenceContains (container candidate : List String) : Bool :=
  if candidate.length = 0 || candidate.length > container.length then false
  else
    (List.range container.length).any fun index =>
      (List.range candidate.length).all fun offset =>
        container[index + offset]? = candidate[offset]?

def equivalentEntityTokens (left right : List String) : Bool :=
  tokenSequenceContains left right || tokenSequenceContains right left

def sharesSourceSegment (left right : List String) : Bool :=
  right.any fun id => id ∈ left

def comparisonSemanticsMatch (left right : ComparisonParts) : Bool :=
  equivalentEntityTokens left.subject right.subject &&
    tokenSequenceContains left.relation right.relation &&
    tokenSequenceContains right.relation left.relation &&
    equivalentEntityTokens left.object right.object

namespace ClaimPatterns

/-- Runs of other characters become one blank, and none is left at the ends. -/
def normalized (patterns : ClaimPatterns) (text : String) : String :=
  let dropped (c : Char) : Bool :=
    !(patterns.host.isLetterOrNumber c || c ∈ ['%', '$', '.', '-'])
  let lower := patterns.host.toLocaleLowerCase (patterns.nfkc text)
  " ".intercalate ((wordsAt dropped lower.toList).map String.ofList)

def normalizedTokens (patterns : ClaimPatterns) (value : String) : List String :=
  let isPunctuation (c : Char) : Bool := c ∈ ['.', '-']
  let stripped (token : List Char) : List Char :=
    ((token.dropWhile isPunctuation).reverse.dropWhile isPunctuation).reverse
  (((wordsAt isWhiteSpace (patterns.normalized value).toList).map stripped).filter
    (!·.isEmpty)).map String.ofList

def comparisonParts (patterns : ClaimPatterns) (value : String) : Option ComparisonParts :=
  match patterns.atomicComparisonStatement value with
  | none => none
  | some atomic =>
    if atomic = "" then none
    else
      (patterns.comparisonSlices atomic).map fun slices =>
        { subject := patterns.normalizedTokens slices.1
          relation := patterns.normalizedTokens slices.2.1
          object := patterns.normalizedTokens slices.2.2 }

def highNormalizedTokenOverlap (patterns : ClaimPatterns) (left right : String) : Bool :=
  let leftTokens := (patterns.normalizedTokens left).dedup
  let rightTokens := (patterns.normalizedTokens right).dedup
  let smallerSize := min leftTokens.length rightTokens.length
  if smallerSize = 0 then false
  else
    let shared := (leftTokens.filter (· ∈ rightTokens)).length
    (shared : Number) / smallerSize ≥ 8 / 10

def sourceBackedSemanticDuplicate (patterns : ClaimPatterns)
    (left right : String × List String) : Bool :=
  if !sharesSourceSegment left.2 right.2 then false
  else
    let leftAtomic := (patterns.atomicComparisonStatement left.1).getD left.1
    let rightAtomic := (patterns.atomicComparisonStatement right.1).getD right.1
    if !patterns.highNormalizedTokenOverlap leftAtomic rightAtomic then false
    else
      match patterns.comparisonParts leftAtomic, patterns.comparisonParts rightAtomic with
      | some leftComparison, some rightComparison =>
        comparisonSemanticsMatch leftComparison rightComparison
      | none, none =>
        equivalentEntityTokens (patterns.normalizedTokens leftAtomic)
          (patterns.normalizedTokens rightAtomic)
      | _, _ => false

/-- The text functions of the scheduler. -/
def claimText (patterns : ClaimPatterns) : ClaimText where
  normalized := patterns.normalized
  atomicComparisonStatement := patterns.atomicComparisonStatement
  normalizedClaimWording := patterns.normalizedClaimWording
  sourceBackedSemanticDuplicate := patterns.sourceBackedSemanticDuplicate

end ClaimPatterns

section Symmetric

variable (patterns : ClaimPatterns)

theorem equivalentEntityTokens_comm (left right : List String) :
    equivalentEntityTokens left right = equivalentEntityTokens right left :=
  Bool.or_comm _ _

theorem sharesSourceSegment_comm (left right : List String) :
    sharesSourceSegment left right = sharesSourceSegment right left := by
  rw [Bool.eq_iff_iff, sharesSourceSegment, sharesSourceSegment]
  simp only [any_eq_true, decide_eq_true_eq]
  constructor
  · rintro ⟨id, inRight, inLeft⟩
    exact ⟨id, inLeft, inRight⟩
  · rintro ⟨id, inLeft, inRight⟩
    exact ⟨id, inRight, inLeft⟩

theorem comparisonSemanticsMatch_comm (left right : ComparisonParts) :
    comparisonSemanticsMatch left right = comparisonSemanticsMatch right left := by
  rw [comparisonSemanticsMatch, comparisonSemanticsMatch,
    equivalentEntityTokens_comm left.subject, equivalentEntityTokens_comm left.object,
    Bool.and_right_comm (equivalentEntityTokens right.subject left.subject)]

theorem highNormalizedTokenOverlap_comm (left right : String) :
    patterns.highNormalizedTokenOverlap left right =
      patterns.highNormalizedTokenOverlap right left := by
  have shared := length_filter_mem_comm (nodup_dedup (patterns.normalizedTokens left))
    (nodup_dedup (patterns.normalizedTokens right))
  rw [ClaimPatterns.highNormalizedTokenOverlap, ClaimPatterns.highNormalizedTokenOverlap]
  rw [shared, min_comm]

theorem sourceBackedSemanticDuplicate_comm (left right : String × List String) :
    patterns.sourceBackedSemanticDuplicate left right =
      patterns.sourceBackedSemanticDuplicate right left := by
  rw [ClaimPatterns.sourceBackedSemanticDuplicate, ClaimPatterns.sourceBackedSemanticDuplicate,
    sharesSourceSegment_comm]
  simp only
  rw [highNormalizedTokenOverlap_comm]
  split
  · rfl
  split
  · rfl
  cases patterns.comparisonParts
      ((patterns.atomicComparisonStatement left.1).getD left.1) with
  | none =>
    cases patterns.comparisonParts
        ((patterns.atomicComparisonStatement right.1).getD right.1) with
    | none => exact equivalentEntityTokens_comm _ _
    | some => rfl
  | some =>
    cases patterns.comparisonParts
        ((patterns.atomicComparisonStatement right.1).getD right.1) with
    | none => rfl
    | some => exact comparisonSemanticsMatch_comm _ _

end Symmetric

namespace ClaimScheduler

open Obelus.Transition

def wording (candidate : ClaimCandidate) : String × List String :=
  (candidate.normalizedClaim, candidate.contextTurnIds)

/-- Two candidates make the same claim. -/
def Duplicates (text : ClaimText) (first second : ClaimCandidate) : Prop :=
  first.semanticDuplicateKey = second.semanticDuplicateKey ∨
    text.normalized first.normalizedClaim = text.normalized second.normalizedClaim ∨
    text.sourceBackedSemanticDuplicate (wording first) (wording second) = true

/-- A candidate makes the claim that is there, in its current version. -/
def MatchesClaim (text : ClaimText) (candidate : ClaimCandidate) (claim : Claim) : Prop :=
  candidate.semanticDuplicateKey = claim.duplicateKey ∨
    ∃ version ∈ currentVersion claim,
      text.normalized candidate.normalizedClaim = text.normalized version.normalizedClaim ∨
        text.sourceBackedSemanticDuplicate (wording candidate)
          (version.normalizedClaim, version.segmentIds) = true

def Matches (text : ClaimText) (claims : List Claim) (candidate : ClaimCandidate) : Prop :=
  ∃ claim ∈ claims, MatchesClaim text candidate claim

/-- The candidates differ from each other and from the claims that are there. -/
structure NewClaims (text : ClaimText) (claims : List Claim) (accepted : List ClaimCandidate) :
    Prop where
  distinct : accepted.Pairwise fun first second => ¬Duplicates text first second
  unmatched : ∀ candidate ∈ accepted, ¬Matches text claims candidate

theorem duplicates_comm (patterns : ClaimPatterns) (first second : ClaimCandidate) :
    Duplicates patterns.claimText first second ↔ Duplicates patterns.claimText second first := by
  rw [Duplicates, Duplicates, eq_comm]
  have backed : patterns.claimText.sourceBackedSemanticDuplicate (wording first) (wording second) =
      patterns.claimText.sourceBackedSemanticDuplicate (wording second) (wording first) :=
    sourceBackedSemanticDuplicate_comm patterns _ _
  rw [backed, eq_comm (a := patterns.claimText.normalized first.normalizedClaim)]

/-- The scores a candidate needs. -/
def Eligible (candidate : ClaimCandidate) : Prop :=
  (!candidate.checkworthy || candidate.specificityScore < 1 / 2) = false ∧
    (candidate.consequenceScore < 45 / 100 && candidate.disputeLikelihoodScore < 55 / 100) = false

def listedWordings (claims : List Claim) : List (String × List String) :=
  claims.filterMap fun claim =>
    (currentVersion claim).map fun version => (version.normalizedClaim, version.segmentIds)

/-- The loop compares with the listed claims and with what it accepted. -/
structure Tracks (text : ClaimText) (claims : List Claim) (selection : Selection) : Prop where
  keys : selection.existingKeys =
    claims.map (·.duplicateKey) ++ selection.accepted.map (·.semanticDuplicateKey)
  normalized : selection.existingNormalized =
    (listedWordings claims ++ selection.accepted.map wording).map fun known =>
      text.normalized known.1
  known : selection.knownCandidates = listedWordings claims ++ selection.accepted.map wording

/-- The comparison the loop makes for a candidate. -/
def seen (text : ClaimText) (selection : Selection) (candidate : ClaimCandidate) : Bool :=
  candidate.semanticDuplicateKey ∈ selection.existingKeys ||
    text.normalized candidate.normalizedClaim ∈ selection.existingNormalized ||
    selection.knownCandidates.any (text.sourceBackedSemanticDuplicate (wording candidate))

variable {text : ClaimText} {claims existingClaims : List Claim} {selection : Selection}
  {detected : ClaimCandidate} {patterns : ClaimPatterns} {now : Number} {scheduler : ClaimScheduler}

theorem seen_iff (tracks : Tracks text claims selection) (candidate : ClaimCandidate) :
    seen text selection candidate = true ↔
      Matches text claims candidate ∨
        ∃ earlier ∈ selection.accepted, Duplicates text candidate earlier := by
  have listed : ∀ known, known ∈ listedWordings claims ↔ ∃ claim ∈ claims,
      ∃ version ∈ currentVersion claim, (version.normalizedClaim, version.segmentIds) = known := by
    simp [listedWordings]
  rw [seen, tracks.keys, tracks.normalized, tracks.known]
  simp only [Bool.or_eq_true, decide_eq_true_eq, any_eq_true, mem_append, mem_map, listed]
  constructor
  · rintro (((⟨claim, member, key⟩ | ⟨earlier, member, key⟩) |
      ⟨known, ⟨claim, member, version, current, rfl⟩ | ⟨earlier, member, rfl⟩, same⟩) |
      ⟨known, ⟨claim, member, version, current, rfl⟩ | ⟨earlier, member, rfl⟩, backed⟩)
    · exact Or.inl ⟨claim, member, Or.inl key.symm⟩
    · exact Or.inr ⟨earlier, member, Or.inl key.symm⟩
    · exact Or.inl ⟨claim, member, Or.inr ⟨version, current, Or.inl same.symm⟩⟩
    · exact Or.inr ⟨earlier, member, Or.inr (Or.inl same.symm)⟩
    · exact Or.inl ⟨claim, member, Or.inr ⟨version, current, Or.inr backed⟩⟩
    · exact Or.inr ⟨earlier, member, Or.inr (Or.inr backed)⟩
  · rintro (⟨claim, member, key | ⟨version, current, same | backed⟩⟩ |
      ⟨earlier, member, key | same | backed⟩)
    · exact Or.inl (Or.inl (Or.inl ⟨claim, member, key.symm⟩))
    · exact Or.inl (Or.inr ⟨_, Or.inl ⟨claim, member, version, current, rfl⟩, same.symm⟩)
    · exact Or.inr ⟨_, Or.inl ⟨claim, member, version, current, rfl⟩, backed⟩
    · exact Or.inl (Or.inl (Or.inr ⟨earlier, member, key.symm⟩))
    · exact Or.inl (Or.inr ⟨_, Or.inr ⟨earlier, member, rfl⟩, same.symm⟩)
    · exact Or.inr ⟨_, Or.inr ⟨earlier, member, rfl⟩, backed⟩

/-- The loop accepts a candidate, or leaves what it accepted as it is. -/
theorem selectCandidate_cases (text : ClaimText) (selection : Selection)
    (detected : ClaimCandidate) :
    ((selectCandidate text selection detected).accepted = selection.accepted ∧
        (selectCandidate text selection detected).existingKeys = selection.existingKeys ∧
        (selectCandidate text selection detected).existingNormalized =
          selection.existingNormalized ∧
        (selectCandidate text selection detected).knownCandidates = selection.knownCandidates) ∨
      (Eligible (canonicalAutomaticComparisonCandidate text detected) ∧
        seen text selection (canonicalAutomaticComparisonCandidate text detected) = false ∧
        selectCandidate text selection detected =
          let candidate := canonicalAutomaticComparisonCandidate text detected
          { selection with
            existingKeys := selection.existingKeys ++ [candidate.semanticDuplicateKey]
            existingNormalized :=
              selection.existingNormalized ++ [text.normalized candidate.normalizedClaim]
            knownCandidates := selection.knownCandidates ++ [wording candidate]
            accepted := selection.accepted ++ [candidate]
            remainingHourly := selection.remainingHourly - 1
            remainingBurst := selection.remainingBurst - 1 }) := by
  unfold selectCandidate
  dsimp only
  split
  · exact Or.inl ⟨rfl, rfl, rfl, rfl⟩
  next worthy =>
  split
  · exact Or.inl ⟨rfl, rfl, rfl, rfl⟩
  next scored =>
  split
  · exact Or.inl ⟨rfl, rfl, rfl, rfl⟩
  next unseen =>
  split
  · exact Or.inl ⟨rfl, rfl, rfl, rfl⟩
  · exact Or.inr ⟨⟨Bool.eq_false_iff.mpr worthy, Bool.eq_false_iff.mpr scored⟩,
      Bool.eq_false_iff.mpr unseen, rfl⟩

/-- With room in the budgets an eligible candidate that was not seen is accepted. -/
theorem accepted_selectCandidate
    (eligible : Eligible (canonicalAutomaticComparisonCandidate text detected))
    (unseen : seen text selection (canonicalAutomaticComparisonCandidate text detected) = false)
    (hourly : selection.remainingHourly ≠ 0) (burst : selection.remainingBurst ≠ 0) :
    (selectCandidate text selection detected).accepted =
      selection.accepted ++ [canonicalAutomaticComparisonCandidate text detected] := by
  unfold selectCandidate
  simp only [seen, wording] at unseen
  rw [if_neg (Bool.eq_false_iff.mp eligible.1), if_neg (Bool.eq_false_iff.mp eligible.2),
    if_neg (Bool.eq_false_iff.mp unseen), if_neg (by simp [hourly, burst])]

/-- What the loop has accepted is new, and everything in it was detected and is eligible. -/
structure Selects (text : ClaimText) (claims : List Claim) (selection : Selection) : Prop where
  tracks : Tracks text claims selection
  new : NewClaims text claims selection.accepted
  eligible : ∀ candidate ∈ selection.accepted, ∃ detected,
    canonicalAutomaticComparisonCandidate text detected = candidate ∧ Eligible candidate

theorem Selects.step (selects : Selects patterns.claimText claims selection)
    (detected : ClaimCandidate) : Selects patterns.claimText claims
      (selectCandidate patterns.claimText selection detected) := by
  rcases selectCandidate_cases patterns.claimText selection detected with
    ⟨accepted, keys, normalized, known⟩ | ⟨eligible, unseen, result⟩
  · refine ⟨⟨?_, ?_, ?_⟩, ?_, ?_⟩
    · rw [keys, accepted]
      exact selects.tracks.keys
    · rw [normalized, accepted]
      exact selects.tracks.normalized
    · rw [known, accepted]
      exact selects.tracks.known
    · rw [accepted]
      exact selects.new
    · rw [accepted]
      exact selects.eligible
  · have fresh := mt (seen_iff selects.tracks _).mpr (Bool.eq_false_iff.mp unseen)
    rw [not_or] at fresh
    rw [result]
    refine ⟨⟨?_, ?_, ?_⟩, ⟨?_, ?_⟩, ?_⟩
    · simp [selects.tracks.keys]
    · simp [selects.tracks.normalized, wording]
    · simp [selects.tracks.known]
    · apply pairwise_append.mpr
      refine ⟨selects.new.distinct, pairwise_singleton _ _, ?_⟩
      intro earlier member candidate isNew duplicates
      rw [mem_singleton.mp isNew, duplicates_comm] at duplicates
      exact fresh.2 ⟨earlier, member, duplicates⟩
    · intro candidate member
      rcases mem_append.mp member with old | isNew
      · exact selects.new.unmatched candidate old
      · rw [mem_singleton.mp isNew]
        exact fresh.1
    · intro candidate member
      rcases mem_append.mp member with old | isNew
      · exact selects.eligible candidate old
      · rw [mem_singleton.mp isNew]
        exact ⟨detected, rfl, eligible⟩

theorem Selects.foldl (selects : Selects patterns.claimText claims selection)
    (candidates : List ClaimCandidate) : Selects patterns.claimText claims
      (candidates.foldl (selectCandidate patterns.claimText) selection) := by
  induction candidates generalizing selection with
  | nil => exact selects
  | cons detected rest ih => exact ih (selects.step detected)

/-- No claim may be accepted now, in the hour or in the burst window. -/
def BudgetsUsedUp (scheduler : ClaimScheduler) (now : Number) : Prop :=
  scheduler.options.maxAcceptedClaimsPerHour ≤
      (scheduler.pruneBudgets now).acceptedClaimTimes.length ∨
    scheduler.options.maxBurstClaims ≤
      ((scheduler.pruneBudgets now).acceptedClaimTimes.filter
        (· ≥ now - scheduler.options.burstWindowMs)).length

/-- Every candidate that makes a claim listed now makes a claim that was listed before. -/
def ListedBefore (text : ClaimText) (before now : List Claim) : Prop :=
  ∀ detected, Eligible (canonicalAutomaticComparisonCandidate text detected) →
    Matches text now (canonicalAutomaticComparisonCandidate text detected) →
      Matches text before (canonicalAutomaticComparisonCandidate text detected)

/-- A pending `detect` that resolves now commits new claims only, whatever it found. -/
def CommitsListed (text : ClaimText) (scheduler : ClaimScheduler) (reading : Reading) : Prop :=
  ∀ batch existingClaims, scheduler.running = some ⟨batch, .detect existingClaims⟩ →
    scheduler.disposed = true ∨ scheduler.BudgetsUsedUp reading.now ∨
      ListedBefore text existingClaims reading.claims

/-- The candidates of every `commitBatch` call are new against the claims listed then. -/
def CommitsNew (text : ClaimText) (claims : List Claim) (emitted : List Observation) : Prop :=
  ∀ batch accepted, .commitBatch batch accepted ∈ emitted → NewClaims text claims accepted

def detectedCandidates : Detection → List ClaimCandidate
  | .candidates candidates => candidates
  | .result result => result.candidates

theorem acceptedCandidates_congr {first second : ClaimScheduler} {candidates : List ClaimCandidate}
    (options : first.options = second.options)
    (times : first.acceptedClaimTimes = second.acceptedClaimTimes) :
    first.acceptedCandidates text now candidates existingClaims =
      second.acceptedCandidates text now candidates existingClaims := by
  rw [acceptedCandidates, acceptedCandidates, options, times]

/-- What a resolved `detect` commits. -/
theorem detectResolved_commits (text : ClaimText) (active : scheduler.disposed = false)
    (batch : ScheduledClaimGateBatch) (existingClaims : List Claim) (detection : Detection)
    (reading : Reading) : (scheduler.detectResolved text batch existingClaims detection reading).2 =
      [.commitBatch batch.toClaimGateBatch
        ((scheduler.pruneBudgets reading.now).acceptedCandidates text reading.now
          (detectedCandidates detection) existingClaims).accepted] := by
  unfold detectResolved
  rw [if_neg (Bool.eq_false_iff.mp active)]
  cases detection with
  | candidates candidates =>
    exact congrArg (fun selection : Selection =>
      [Observation.commitBatch batch.toClaimGateBatch selection.accepted])
      (acceptedCandidates_congr rfl rfl)
  | result result =>
    cases counted : result.countAgainstRemoteBudget with
    | false =>
      simp only [counted]
      exact congrArg (fun selection : Selection =>
        [Observation.commitBatch batch.toClaimGateBatch selection.accepted])
        (acceptedCandidates_congr rfl rfl)
    | true =>
      simp only [counted]
      exact congrArg (fun selection : Selection =>
        [Observation.commitBatch batch.toClaimGateBatch selection.accepted])
        (acceptedCandidates_congr rfl rfl)

theorem selects_acceptedCandidates (patterns : ClaimPatterns) (scheduler : ClaimScheduler)
    (now : Number) (candidates : List ClaimCandidate) (existingClaims : List Claim) :
    Selects patterns.claimText existingClaims
      (scheduler.acceptedCandidates patterns.claimText now candidates existingClaims) := by
  apply Selects.foldl
  refine ⟨⟨?_, ?_, ?_⟩, ⟨?_, ?_⟩, ?_⟩
  · simp
  · simp [listedWordings]
  · simp [listedWordings]
  · exact Pairwise.nil
  · simp
  · simp

/-- Without room in a budget nothing is accepted. -/
theorem acceptedCandidates_of_usedUp (text : ClaimText) (usedUp : scheduler.BudgetsUsedUp now)
    (candidates : List ClaimCandidate) (existingClaims : List Claim) :
    ((scheduler.pruneBudgets now).acceptedCandidates text now candidates
      existingClaims).accepted = [] := by
  apply eq_nil_of_length_eq_zero
  apply Nat.le_zero.mp
  rcases usedUp with hourly | burst
  · apply (length_acceptedCandidates_le_hourly text _ now candidates existingClaims).trans
    exact (Nat.sub_eq_zero_of_le hourly).le
  · apply (length_acceptedCandidates_le_burst text _ now candidates existingClaims).trans
    exact (Nat.sub_eq_zero_of_le burst).le

/-- A single eligible candidate that was not listed is accepted when there is room. -/
theorem acceptedCandidates_singleton (room : ¬scheduler.BudgetsUsedUp now)
    (eligible : Eligible (canonicalAutomaticComparisonCandidate patterns.claimText detected))
    (unlisted : ¬Matches patterns.claimText existingClaims
      (canonicalAutomaticComparisonCandidate patterns.claimText detected)) :
    ((scheduler.pruneBudgets now).acceptedCandidates patterns.claimText now [detected]
        existingClaims).accepted =
      [canonicalAutomaticComparisonCandidate patterns.claimText detected] := by
  have initial := selects_acceptedCandidates patterns (scheduler.pruneBudgets now) now []
    existingClaims
  rw [BudgetsUsedUp, not_or, not_le, not_le] at room
  have unseen : seen patterns.claimText
      ((scheduler.pruneBudgets now).acceptedCandidates patterns.claimText now [] existingClaims)
      (canonicalAutomaticComparisonCandidate patterns.claimText detected) = false := by
    rw [Bool.eq_false_iff, ne_eq, seen_iff initial.tracks, not_or]
    refine ⟨unlisted, ?_⟩
    rintro ⟨earlier, member, -⟩
    cases member
  exact accepted_selectCandidate eligible unseen (Nat.sub_ne_zero_of_lt room.1)
    (Nat.sub_ne_zero_of_lt room.2)

/-- Only a resolved `detect` commits. -/
theorem commitBatch_of_step {host : Host} {next : ClaimScheduler} {action : Reading × Action}
    {emitted : List Observation} (stepped : step host text scheduler action = some (next, emitted))
    {batch : ClaimGateBatch} {accepted : List ClaimCandidate}
    (commits : .commitBatch batch accepted ∈ emitted) : ∃ scheduled existingClaims detection,
      scheduler.running = some ⟨scheduled, .detect existingClaims⟩ ∧
        scheduler.disposed = false ∧
        accepted = ((scheduler.pruneBudgets action.1.now).acceptedCandidates text action.1.now
          (detectedCandidates detection) existingClaims).accepted := by
  obtain ⟨reading, action⟩ := action
  have flushSilent : ∀ scheduler : ClaimScheduler,
      .commitBatch batch accepted ∉ (scheduler.flush host reading).2 := by
    intro scheduler
    unfold flush
    split
    · simp
    dsimp only
    split
    · simp
    split
    · simp [callDetect]
    · simp
  obtain ⟨_, steps, rfl, rfl⟩ := steps_of_step stepped
  cases steps with
  | addFinalTurn turn =>
    unfold addFinalTurn at commits
    split at commits
    · dsimp only at commits
      split at commits
      · rcases mem_cons.mp commits with same | inFlush
        · cases same
        · exact absurd inFlush (flushSilent _)
      · simp at commits
    · cases commits
  | recoverBatch batch =>
    unfold recoverBatch at commits
    split at commits
    · cases commits
    split at commits
    · cases commits
    split at commits
    · cases commits
    · simp at commits
  | flush =>
    exact absurd commits (flushSilent scheduler)
  | timerFired =>
    exact absurd commits (flushSilent _)
  | setMaxGateCallsPerHour maxGateCallsPerHour =>
    cases commits
  | dispose =>
    cases commits
  | beginResolved =>
    rw [beginResolved] at commits
    split at commits
    · cases commits
    · simp [callDetect] at commits
  | detectResolved runs detection =>
    cases active : scheduler.disposed with
    | true => simp [detectResolved, active] at commits
    | false =>
      rw [detectResolved_commits text active, mem_singleton] at commits
      cases commits
      exact ⟨_, _, detection, runs, rfl, rfl⟩
  | commitResolved =>
    rw [commitResolved] at commits
    split at commits
    · simp at commits
    · simp at commits
  | rejected =>
    rw [rejected] at commits
    split at commits
    · cases commits
    · simp at commits

/-- From a state every commit is new, for every batch and detection result, just when a
pending `detect` finds no claim in the list that it could not find before it was called. -/
theorem commitsNew_iff (host : Host) (patterns : ClaimPatterns) (scheduler : ClaimScheduler)
    (reading : Reading) : (∀ action next emitted,
        step host patterns.claimText scheduler (reading, action) = some (next, emitted) →
          CommitsNew patterns.claimText reading.claims emitted) ↔
      CommitsListed patterns.claimText scheduler reading := by
  constructor
  · intro commitsNew batch existingClaims runs
    cases active : scheduler.disposed with
    | true => exact Or.inl rfl
    | false =>
      right
      by_cases usedUp : scheduler.BudgetsUsedUp reading.now
      · exact Or.inl usedUp
      right
      intro detected eligible listed
      by_contra unlisted
      have commits := detectResolved_commits patterns.claimText active batch existingClaims
        (.candidates [detected]) reading
      rw [detectedCandidates, acceptedCandidates_singleton usedUp eligible unlisted] at commits
      have stepped : step host patterns.claimText scheduler
          (reading, .detectResolved (.candidates [detected])) =
            some ((scheduler.detectResolved patterns.claimText batch existingClaims
              (.candidates [detected]) reading).1,
              [.commitBatch batch.toClaimGateBatch
                [canonicalAutomaticComparisonCandidate patterns.claimText detected]]) := by
        rw [← commits, step, runs]
      have new := commitsNew _ _ _ stepped _ _ mem_cons_self
      exact new.unmatched _ mem_cons_self listed
  · intro listed action next emitted stepped batch accepted commits
    obtain ⟨scheduled, existingClaims, detection, runs, active, rfl⟩ :=
      commitBatch_of_step stepped commits
    have selects := selects_acceptedCandidates patterns (scheduler.pruneBudgets reading.now)
      reading.now (detectedCandidates detection) existingClaims
    refine ⟨selects.new.distinct, ?_⟩
    rcases listed scheduled existingClaims runs with disposed | usedUp | before
    · rw [active] at disposed
      cases disposed
    · intro candidate member
      rw [acceptedCandidates_of_usedUp _ usedUp] at member
      cases member
    · intro candidate member isListed
      obtain ⟨detected, rfl, eligible⟩ := selects.eligible candidate member
      exact selects.new.unmatched _ member (before detected eligible isListed)

section Recorded

/-- Lower case texts of letters and digits without a comparison are their own normal form. -/
def recordedPatterns : ClaimPatterns where
  host := { recordedHost with isLetterOrNumber := Char.isAlphanum }
  nfkc := id
  atomicComparisonStatement _ := none
  comparisonSlices _ := none
  normalizedClaimWording := id

/-- A claim that is added by hand. -/
def addedClaim : Claim where
  id := "claim-1"
  duplicateKey := "amazon employs 1000 people"
  currentVersionId := "version-1"
  versions := [⟨"version-1", "amazon employs 1000 people", ["turn-1"]⟩]

/-- A turn is detected while the meeting has no claims. -/
def detectingRun : List (Reading × Action) :=
  recordedSegments [.addFinalTurn recordedTurn, .timerFired, .beginResolved]

/-- The claim is added while `detect` is pending, and committed a second time. -/
theorem not_commitsNew_addedClaim : ¬∀ (host : Host) (patterns : ClaimPatterns) (meetingId : String)
        (options : ClaimSchedulerOptions) (config : Config ClaimScheduler Observation),
      Reaches (step host patterns.claimText) (fun _ _ _ => True) (new meetingId options) config →
        ∀ reading action next emitted,
          step host patterns.claimText config.state (reading, action) = some (next, emitted) →
            CommitsNew patterns.claimText reading.claims emitted := by
  intro commitsNew
  obtain ⟨config, reaches, ⟨next, emitted⟩, stepped, commits⟩ := exists_reaches_of_exec
    (step recordedHost recordedPatterns.claimText) (fun _ _ _ => True)
    (new "meeting-1" gatewayClaimSchedulerOptions)
    (fun config => ∃ result ∈ step recordedHost recordedPatterns.claimText config.state
        (⟨0, [addedClaim]⟩, .detectResolved
          (.candidates [recordedCandidate "amazon employs 1000 people"])),
      .commitBatch (createClaimGateBatch recordedHost "meeting-1" [recordedTurn.toSnapshot])
        [recordedCandidate "amazon employs 1000 people"] ∈ result.2)
    detectingRun (by decide) (by decide +kernel)
  have new := commitsNew recordedHost recordedPatterns "meeting-1" gatewayClaimSchedulerOptions
    config reaches _ _ next emitted stepped _ _ commits
  apply new.unmatched _ mem_cons_self
  exact ⟨addedClaim, mem_cons_self, Or.inl rfl⟩

end Recorded

end ClaimScheduler

end Obelus.Live
