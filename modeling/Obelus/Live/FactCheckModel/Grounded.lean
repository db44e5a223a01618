import Obelus.Live.FactCheckModel.JoinedTurns

/-!
# Cited turns

What the checks of the turns that a candidate cites say about these turns: they stand in the
request one behind the other and belong together.
-/

namespace Obelus.Live.FactCheckModel

open List
open Data (bind_eq_ok_iff ensure_eq_ok_iff pure_eq_ok_iff)
open Meetings.Validation (isWhitespace)

theorem of_validateTurns {turns : List DetectionTurn} {seen last : List String × Nat}
    (distinct : seen.1.Nodup) (folded : turns.foldlM validateTurnStep seen = .ok last) :
    (turns.map DetectionTurn.id ++ seen.1).Nodup ∧
      ∀ turn ∈ turns, isBlank turn.text = false := by
  induction turns generalizing seen with
  | nil => exact ⟨distinct, forall_mem_nil _⟩
  | cons turn rest ih =>
    rw [foldlM_cons, bind_eq_ok_iff] at folded
    obtain ⟨next, step, restFolded⟩ := folded
    simp only [validateTurnStep, validateNonemptyBounded, bind_eq_ok_iff, ensure_eq_ok_iff,
      pure_eq_ok_iff] at step
    obtain ⟨_, ⟨-, isNew⟩, _, -, _, -, _, ⟨notBlank, -⟩, rfl⟩ := step
    obtain ⟨restNodup, restNotBlank⟩ := ih (nodup_cons.mpr ⟨isNew, distinct⟩) restFolded
    exact ⟨perm_middle.nodup_iff.mp restNodup, forall_mem_cons.mpr ⟨notBlank, restNotBlank⟩⟩

variable {β : Type} {request : DetectionRequest} {candidate : DetectionCandidate}

/-- The turns of a valid request have distinct ids and texts that are not blank. -/
theorem of_validateClaimDetectionRequest (valid : validateClaimDetectionRequest request = .ok ⟨⟩) :
    (request.turns.map DetectionTurn.id).Nodup ∧
      ∀ turn ∈ request.turns, splitWhitespace turn.text.toList ≠ [] := by
  simp only [validateClaimDetectionRequest, bind_eq_ok_iff] at valid
  obtain ⟨_, -, last, folded, -⟩ := valid
  obtain ⟨distinct, notBlank⟩ := of_validateTurns nodup_nil folded
  refine ⟨by simpa using distinct, ?_⟩
  intro turn member
  have someBlack : ∃ c ∈ turn.text.toList, isWhitespace c = false := by
    have black := notBlank turn member
    rw [isBlank] at black
    simpa using black
  obtain ⟨c, inText, black⟩ := someBlack
  exact Data.wordsAt_ne_nil inText black

/-- The candidate cites turns that stand in the request one behind the other. -/
def CitesTurns (request : DetectionRequest) (candidate : DetectionCandidate)
    (cited : List DetectionTurn) : Prop :=
  candidate.segmentIds = cited.map DetectionTurn.id ∧
    ∃ front back, request.turns = front ++ (cited ++ back)

section Positions

variable {request : DetectionRequest} (distinct : (request.turns.map DetectionTurn.id).Nodup)

variable {index : Nat}

theorem exists_of_turnPosition {id : String} (found : turnPosition request id = some index) :
    ∃ turn, request.turns[index]? = some turn ∧ turn.id = id := by
  have isId := find?_some found
  obtain ⟨turn, here, same⟩ := (Option.any_eq_true _ _).mp isId
  exact ⟨turn, here, by simpa using same⟩

include distinct in
theorem turnPosition_of_getElem? {turn : DetectionTurn} (here : request.turns[index]? = some turn) :
    turnPosition request turn.id = some index := by
  have within := (List.getElem?_eq_some_iff.mp here).1
  have isSome : (turnPosition request turn.id).isSome = true := by
    rw [turnPosition, find?_isSome]
    exact ⟨index, by simpa using within, by simp [here]⟩
  obtain ⟨other, found⟩ := Option.isSome_iff_exists.mp isSome
  obtain ⟨otherTurn, there, sameId⟩ := exists_of_turnPosition found
  have same : index = other := by
    apply (getElem?_inj (by simpa using within) distinct).mp
    rw [getElem?_map, getElem?_map, here, there, Option.map_some, Option.map_some, sameId]
  rw [found, same]

/-- Places one behind the other are those of neighbouring turns. -/
theorem exists_cited_of_positions {first : Nat} {ids : List String} {positions : List Nat}
    (found : ids.mapM (turnPosition request) = some (first :: positions))
    (chain : (first :: positions).IsChain fun first second => second = first + 1) :
    ∃ cited back, request.turns.drop first = cited ++ back ∧ ids = cited.map DetectionTurn.id ∧
      (first :: positions).filterMap (request.turns[·]?) = cited := by
  induction ids generalizing first positions with
  | nil => cases found
  | cons id ids ih =>
    obtain ⟨place, others, here, restFound, isCons⟩ := Data.mapM_cons_eq_some_iff.mp found
    obtain ⟨rfl, rfl⟩ := cons.inj isCons
    obtain ⟨turn, isTurn, rfl⟩ := exists_of_turnPosition here
    have within := (List.getElem?_eq_some_iff.mp isTurn).1
    have isDrop : request.turns.drop first = turn :: request.turns.drop (first + 1) := by
      rw [drop_eq_getElem_cons within, (List.getElem?_eq_some_iff.mp isTurn).2]
    rw [filterMap_cons_some isTurn, isDrop]
    cases positions with
    | nil =>
      have noMore : ids = [] := by
        have sameLength := Data.length_of_mapM_eq_some restFound
        exact eq_nil_of_length_eq_zero sameLength.symm
      exact ⟨[turn], _, rfl, by rw [noMore]; rfl, rfl⟩
    | cons next positions =>
      obtain ⟨rfl, restChain⟩ := isChain_cons_cons.mp chain
      obtain ⟨cited, back, restDrop, restIds, restCited⟩ := ih restFound restChain
      exact ⟨turn :: cited, back, by rw [restDrop]; rfl, by rw [restIds]; rfl, by rw [restCited]⟩

include distinct in
theorem positions_of_cited {front cited back : List DetectionTurn}
    (isTurns : request.turns = front ++ (cited ++ back)) :
    ∃ positions, (cited.map DetectionTurn.id).mapM (turnPosition request) = some positions ∧
      positions.IsChain (fun first second => second = first + 1) ∧
      positions.head?.all (· == front.length) = true ∧
      positions.filterMap (request.turns[·]?) = cited := by
  induction cited generalizing front with
  | nil => exact ⟨[], rfl, isChain_nil, rfl, rfl⟩
  | cons turn cited ih =>
    have here : request.turns[front.length]? = some turn := by
      rw [isTurns, getElem?_append_right (Nat.le_refl _), Nat.sub_self]
      rfl
    have regroup : request.turns = (front ++ [turn]) ++ (cited ++ back) := by
      rw [isTurns, append_assoc]
      rfl
    obtain ⟨positions, found, chain, isHead, isCited⟩ := ih regroup
    refine ⟨front.length :: positions, ?_, ?_, by simp, ?_⟩
    · rw [map_cons, Data.mapM_cons_eq_some_iff]
      exact ⟨_, _, turnPosition_of_getElem? distinct here, found, rfl⟩
    · cases positions with
      | nil => exact isChain_singleton _
      | cons next positions =>
        refine isChain_cons_cons.mpr ⟨?_, chain⟩
        simpa using isHead
    · rw [filterMap_cons_some here, isCited]

include distinct in
/-- The places that the code finds are those of the cited turns. -/
theorem citesTurns_iff {candidate : DetectionCandidate} (notEmpty : candidate.segmentIds ≠ [])
    (cited : List DetectionTurn) :
    (∃ positions, candidate.segmentIds.mapM (turnPosition request) = some positions ∧
      positions.IsChain (fun first second => second = first + 1) ∧
      positions.filterMap (request.turns[·]?) = cited) ↔ CitesTurns request candidate cited := by
  constructor
  · rintro ⟨positions, found, chain, rfl⟩
    cases positions with
    | nil =>
      have sameLength := Data.length_of_mapM_eq_some found
      exact absurd (eq_nil_of_length_eq_zero sameLength.symm) notEmpty
    | cons first positions =>
      obtain ⟨cited, back, isDrop, isIds, isCited⟩ := exists_cited_of_positions found chain
      rw [isCited]
      refine ⟨isIds, request.turns.take first, back, ?_⟩
      rw [← isDrop, take_append_drop]
  · rintro ⟨isIds, front, back, isTurns⟩
    obtain ⟨positions, found, chain, -, isCited⟩ := positions_of_cited distinct isTurns
    exact ⟨positions, by rw [isIds]; exact found, chain, isCited⟩

end Positions

/-- No two elements have different values of a field that is known. -/
def AtMostOne {α β : Type} (field : α → Option β) (elements : List α) : Prop :=
  ∀ first ∈ elements, ∀ second ∈ elements, ∀ value ∈ field first, ∀ other ∈ field second,
    value = other

/-- One to four turns with one of those that are required, of at most one known speaker and
source, and with short gaps. -/
structure BelongTogether (request : DetectionRequest) (cited : List DetectionTurn) : Prop where
  notEmpty : cited ≠ []
  atMost : cited.length ≤ 4
  required : ∃ turn ∈ cited, turn.id ∈ request.requiredTurnIds
  speaker : AtMostOne DetectionTurn.speakerId cited
  source : AtMostOne DetectionTurn.sourceKind cited
  gaps : ∀ front first second back, cited = front ++ first :: second :: back →
    second.startMs ≤ first.endMs + 2500

theorem dedup_length_le_one_iff [DecidableEq β] (values : List β) :
    values.dedup.length ≤ 1 ↔ ∀ value ∈ values, ∀ other ∈ values, value = other := by
  simp only [← mem_dedup (l := values)]
  have distinct := values.nodup_dedup
  generalize values.dedup = kept at distinct ⊢
  rcases kept with _ | ⟨first, _ | ⟨second, rest⟩⟩
  · simp
  · simp
  · constructor
    · intro short
      exact absurd short (by simp)
    · intro all
      have same : first = second := all first (by simp) second (by simp)
      exact absurd (mem_cons.mpr (.inl same)) (nodup_cons.mp distinct).1

theorem atMostOne_iff {α : Type} [DecidableEq β] (field : α → Option β) (elements : List α) :
    (elements.filterMap field).dedup.length ≤ 1 ↔ AtMostOne field elements := by
  rw [dedup_length_le_one_iff]
  constructor
  · intro all first inFirst second inSecond value isValue other isOther
    exact all value (mem_filterMap.mpr ⟨first, inFirst, isValue⟩) other
      (mem_filterMap.mpr ⟨second, inSecond, isOther⟩)
  · intro all value isValue other isOther
    obtain ⟨first, inFirst, ofFirst⟩ := mem_filterMap.mp isValue
    obtain ⟨second, inSecond, ofSecond⟩ := mem_filterMap.mp isOther
    exact all first inFirst second inSecond value ofFirst other ofSecond

theorem gaps_iff (cited : List DetectionTurn) :
    cited.IsChain (fun first second => second.startMs - first.endMs ≤ maxDetectedClaimTurnGapMs) ↔
      ∀ front first second back, cited = front ++ first :: second :: back →
        second.startMs ≤ first.endMs + 2500 := by
  rw [isChain_iff_forall_rel_of_append_cons_cons]
  constructor
  · intro chain front first second back isCited
    have short := chain isCited
    rw [maxDetectedClaimTurnGapMs] at short
    omega
  · intro gaps first second front back isCited
    have short := gaps front first second back isCited
    rw [maxDetectedClaimTurnGapMs]
    omega

theorem CitesTurns.nodup {cited : List DetectionTurn}
    (distinct : (request.turns.map DetectionTurn.id).Nodup)
    (cites : CitesTurns request candidate cited) : candidate.segmentIds.Nodup := by
  obtain ⟨isIds, front, back, isTurns⟩ := cites
  rw [isTurns, map_append, map_append] at distinct
  rw [isIds]
  exact (nodup_append.mp (nodup_append.mp distinct).2.1).1

/-- The checks of the cited turns pass for turns that belong together and back the quote. -/
theorem validateSegments_eq_ok_iff {unicode : Unicode}
    (distinct : (request.turns.map DetectionTurn.id).Nodup) :
    validateSegments unicode request candidate = .ok ⟨⟩ ↔
      ∃ cited, CitesTurns request candidate cited ∧ BelongTogether request cited ∧
        quoteIsBackedByEveryTurn unicode candidate.exactQuote.toList cited = true := by
  simp only [validateSegments, bind_eq_ok_iff, ensure_eq_ok_iff, Data.elim_eq_ok_iff,
    atMostOne_iff, gaps_iff]
  constructor
  · rintro ⟨_, ⟨notEmpty, atMost⟩, _, -, positions, found, _, ⟨chain, required⟩, speaker, source,
      gaps, backed⟩
    have cites := (citesTurns_iff distinct notEmpty _).mp ⟨positions, found, chain, rfl⟩
    refine ⟨_, cites, ?_, backed⟩
    rw [cites.1] at notEmpty atMost required
    constructor
    · simpa using notEmpty
    · rw [length_map] at atMost
      exact atMost
    · simpa using required
    · exact speaker
    · exact source
    · exact gaps
  · rintro ⟨cited, cites, together, backed⟩
    have notEmpty : candidate.segmentIds ≠ [] := by
      rw [cites.1]
      simpa using together.notEmpty
    obtain ⟨positions, found, chain, isCited⟩ := (citesTurns_iff distinct notEmpty cited).mpr cites
    refine ⟨⟨⟩, ⟨notEmpty, ?_⟩, ⟨⟩, cites.nodup distinct, positions, found, ⟨⟩, ⟨chain, ?_⟩, ?_⟩
    · rw [cites.1, length_map]
      exact together.atMost
    · rw [cites.1]
      simpa using together.required
    · rw [isCited]
      exact ⟨together.speaker, together.source, together.gaps, backed⟩

/-!
## Claims that the transcript backs

Which lists of candidates are accepted: those that are grounded in the turns and of which
the search finds each quote.
-/

def claimOf (unicode : Unicode) (candidate : DetectionCandidate) : List Char :=
  normalizedDetectionText unicode candidate.normalizedClaim

def quoteOf (unicode : Unicode) (candidate : DetectionCandidate) : List Char :=
  normalizedDetectionText unicode candidate.exactQuote

variable {unicode : Unicode} {request : DetectionRequest}
  {seen : List (List Char) × List (List Char)}

/-- The turn of the loop passes for a candidate that passes on its own and is new. -/
theorem validateCandidateStep_eq_ok_iff {candidate : DetectionCandidate}
    {next : List (List Char) × List (List Char)} :
    validateCandidateStep unicode request seen candidate = .ok next ↔
      PassesFields unicode candidate ∧
      claimOf unicode candidate ∉ existingKeys unicode request ∧
      validateSegments unicode request candidate = .ok ⟨⟩ ∧
      claimOf unicode candidate ∉ seen.1 ∧ quoteOf unicode candidate ∉ seen.2 ∧
      next = (claimOf unicode candidate :: seen.1, quoteOf unicode candidate :: seen.2) := by
  simp only [validateCandidateStep, bind_eq_ok_iff, ensure_eq_ok_iff, pure_eq_ok_iff,
    contains_eq_mem, decide_eq_false_iff_not]
  constructor
  · rintro ⟨_, passes, _, ⟨notExisting, newClaim, newQuote⟩, _, segments, rfl⟩
    exact ⟨passes, notExisting, segments, newClaim, newQuote, rfl⟩
  · rintro ⟨passes, notExisting, segments, newClaim, newQuote, rfl⟩
    exact ⟨⟨⟩, passes, ⟨⟩, ⟨notExisting, newClaim, newQuote⟩, ⟨⟩, segments, rfl⟩

/-- The loop ends for candidates that all pass and of which no two are the same. -/
theorem exists_foldlM_iff {candidates : List DetectionCandidate} (claims : seen.1.Nodup)
    (quotes : seen.2.Nodup) :
    (∃ last, candidates.foldlM (validateCandidateStep unicode request) seen = .ok last) ↔
      (∀ candidate ∈ candidates, PassesFields unicode candidate ∧
        claimOf unicode candidate ∉ existingKeys unicode request ∧
        validateSegments unicode request candidate = .ok ⟨⟩) ∧
      (candidates.map (claimOf unicode) ++ seen.1).Nodup ∧
      (candidates.map (quoteOf unicode) ++ seen.2).Nodup := by
  induction candidates generalizing seen with
  | nil =>
    constructor
    · intro _
      exact ⟨forall_mem_nil _, claims, quotes⟩
    · intro _
      exact ⟨seen, rfl⟩
  | cons candidate rest ih =>
    simp only [foldlM_cons, bind_eq_ok_iff, validateCandidateStep_eq_ok_iff, forall_mem_cons]
    constructor
    · rintro ⟨last, _, ⟨passes, notExisting, segments, newClaim, newQuote, rfl⟩, folded⟩
      obtain ⟨others, restClaims, restQuotes⟩ := (ih (nodup_cons.mpr ⟨newClaim, claims⟩)
        (nodup_cons.mpr ⟨newQuote, quotes⟩)).mp ⟨last, folded⟩
      exact ⟨⟨⟨passes, notExisting, segments⟩, others⟩,
        perm_middle.nodup_iff.mp restClaims, perm_middle.nodup_iff.mp restQuotes⟩
    · rintro ⟨⟨⟨passes, notExisting, segments⟩, others⟩, allClaims, allQuotes⟩
      have restClaims := perm_middle.nodup_iff.mpr allClaims
      have restQuotes := perm_middle.nodup_iff.mpr allQuotes
      have newClaims := (nodup_append.mp restClaims).2.1
      have newQuotes := (nodup_append.mp restQuotes).2.1
      obtain ⟨last, folded⟩ := (@ih (claimOf unicode candidate :: seen.1,
        quoteOf unicode candidate :: seen.2) newClaims newQuotes).mpr
          ⟨others, restClaims, restQuotes⟩
      exact ⟨last, _, ⟨passes, notExisting, segments, (nodup_cons.mp newClaims).1,
        (nodup_cons.mp newQuotes).1, rfl⟩, folded⟩

/-- The turns and the quote of a claim: the turns stand one behind the other and belong
together, and the quote stands in their text where it shares a place with each. -/
def Grounded (unicode : Unicode) (request : DetectionRequest) (candidate : DetectionCandidate) :
    Prop :=
  ∃ cited, CitesTurns request candidate cited ∧ BelongTogether request cited ∧
    Backed unicode candidate.exactQuote.toList cited

/-- Candidates that pass the checks of their fields, are grounded and repeat nothing. -/
structure GroundedList (unicode : Unicode) (request : DetectionRequest)
    (candidates : List DetectionCandidate) : Prop where
  atMost : candidates.length ≤ 4
  fields : ∀ candidate ∈ candidates, PassesFields unicode candidate
  grounded : ∀ candidate ∈ candidates, Grounded unicode request candidate
  newClaims : ∀ candidate ∈ candidates, ∀ key ∈ request.existingClaimKeys,
    claimOf unicode candidate ≠ normalizedDetectionText unicode key
  claims : (candidates.map (claimOf unicode)).Nodup
  quotes : (candidates.map (quoteOf unicode)).Nodup

/-- What the claim detection is for: a reply is accepted with the candidates that it holds
when these are grounded, and with no others. -/
def AcceptsGrounded (unicode : Unicode) (message : List ReplyContent)
    (request : DetectionRequest) : Prop :=
  ∀ candidates, parseClaimDetectionDraft unicode message request = .ok candidates ↔
    readCandidates message request = some candidates ∧ GroundedList unicode request candidates

section Valid

variable {unicode : Unicode} {request : DetectionRequest}
  (valid : validateClaimDetectionRequest request = .ok ⟨⟩)

variable {candidate : DetectionCandidate} {cited : List DetectionTurn}

theorem PassesFields.quote_ne_nil (passes : PassesFields unicode candidate) :
    candidate.exactQuote.toList ≠ [] := by
  intro isEmpty
  have notBlank := passes.1.1
  rw [isBlank, isEmpty] at notBlank
  cases notBlank

include valid in
/-- The texts of the cited turns of a valid request are not blank. -/
theorem CitesTurns.notBlank (cites : CitesTurns request candidate cited) :
    ∀ text ∈ textsOf cited, splitWhitespace text ≠ [] := by
  intro text member
  obtain ⟨turn, isCited, rfl⟩ := mem_map.mp member
  obtain ⟨-, front, back, isTurns⟩ := cites
  apply (of_validateClaimDetectionRequest valid).2 turn
  rw [isTurns]
  exact mem_append_right _ (mem_append_left _ isCited)

/-- The ids of the turns say which turns are cited. -/
theorem CitesTurns.unique {other : List DetectionTurn}
    (distinct : (request.turns.map DetectionTurn.id).Nodup) (notEmpty : cited ≠ [])
    (cites : CitesTurns request candidate cited) (citesOther : CitesTurns request candidate other) :
    cited = other := by
  have someIds : candidate.segmentIds ≠ [] := by
    rw [cites.1]
    simpa using notEmpty
  obtain ⟨positions, found, -, rfl⟩ := (citesTurns_iff distinct someIds cited).mpr cites
  obtain ⟨positions', found', -, rfl⟩ := (citesTurns_iff distinct someIds other).mpr citesOther
  rw [found] at found'
  rw [Option.some.inj found']

/-- The quote of a candidate is met in the turns that it cites. -/
def QuoteIsMet (unicode : Unicode) (request : DetectionRequest) (candidate : DetectionCandidate) :
    Prop :=
  ∀ cited, CitesTurns request candidate cited →
    MetFromLeft unicode candidate.exactQuote.toList cited

include valid in
/-- The checks of the turns pass for a grounded candidate of which the quote is met. -/
theorem validateSegments_iff (passes : PassesFields unicode candidate) :
    validateSegments unicode request candidate = .ok ⟨⟩ ↔
      Grounded unicode request candidate ∧ QuoteIsMet unicode request candidate := by
  have distinct := (of_validateClaimDetectionRequest valid).1
  rw [validateSegments_eq_ok_iff distinct]
  constructor
  · rintro ⟨cited, cites, together, found⟩
    have met := (quoteIsBacked_iff passes.quote_ne_nil (cites.notBlank valid)).mp found
    refine ⟨⟨cited, cites, together, met.backed⟩, ?_⟩
    intro other citesOther
    obtain rfl := cites.unique distinct together.notEmpty citesOther
    exact met
  · rintro ⟨⟨cited, cites, together, -⟩, isMet⟩
    refine ⟨cited, cites, together, ?_⟩
    exact (quoteIsBacked_iff passes.quote_ne_nil (cites.notBlank valid)).mpr (isMet cited cites)

theorem notExisting_iff (candidate : DetectionCandidate) :
    claimOf unicode candidate ∉ existingKeys unicode request ↔
      ∀ key ∈ request.existingClaimKeys,
        claimOf unicode candidate ≠ normalizedDetectionText unicode key := by
  rw [existingKeys, mem_map, not_exists]
  constructor
  · intro notExisting key member same
    exact notExisting key ⟨member, same.symm⟩
  · rintro isNew key ⟨member, same⟩
    exact isNew key member same.symm

include valid in
/-- Candidates are accepted when they are grounded and their quotes are met. -/
theorem parseClaimDetectionDraft_eq_ok_iff {message : List ReplyContent}
    {candidates : List DetectionCandidate} :
    parseClaimDetectionDraft unicode message request = .ok candidates ↔
      readCandidates message request = some candidates ∧
      GroundedList unicode request candidates ∧
      ∀ candidate ∈ candidates, QuoteIsMet unicode request candidate := by
  simp only [parseClaimDetectionDraft, validateClaimDetectionCandidates, bind_eq_ok_iff,
    ensure_eq_ok_iff, Data.elim_eq_ok_iff, pure_eq_ok_iff]
  constructor
  · rintro ⟨_, read, _, ⟨_, atMost, last, folded, -⟩, rfl⟩
    obtain ⟨all, claims, quotes⟩ := (exists_foldlM_iff nodup_nil nodup_nil).mp ⟨last, folded⟩
    rw [append_nil] at claims quotes
    refine ⟨read, ?_, ?_⟩
    · constructor
      · exact atMost
      · exact fun candidate member => (all candidate member).1
      · intro candidate member
        obtain ⟨passes, -, segments⟩ := all candidate member
        exact ((validateSegments_iff valid passes).mp segments).1
      · exact fun candidate member => (notExisting_iff candidate).mp (all candidate member).2.1
      · exact claims
      · exact quotes
    · intro candidate member
      obtain ⟨passes, -, segments⟩ := all candidate member
      exact ((validateSegments_iff valid passes).mp segments).2
  · rintro ⟨read, grounded, met⟩
    have folded : ∃ last, candidates.foldlM (validateCandidateStep unicode request) ([], []) =
        .ok last := by
      apply (exists_foldlM_iff nodup_nil nodup_nil).mpr
      refine ⟨?_, ?_, ?_⟩
      · intro candidate member
        have passes := grounded.fields candidate member
        exact ⟨passes, (notExisting_iff candidate).mpr (grounded.newClaims candidate member),
          (validateSegments_iff valid passes).mpr
            ⟨grounded.grounded candidate member, met candidate member⟩⟩
      · rw [append_nil]
        exact grounded.claims
      · rw [append_nil]
        exact grounded.quotes
    obtain ⟨last, folded⟩ := folded
    exact ⟨candidates, read, ⟨⟩, ⟨⟨⟩, grounded.atMost, last, folded, trivial⟩, rfl⟩

include valid in
/-- Accepted candidates are grounded, and the grounded candidates of a reply are accepted
when each of their quotes is met by the search from left to right. -/
theorem acceptsGrounded_iff (message : List ReplyContent) :
    (∀ candidates, parseClaimDetectionDraft unicode message request = .ok candidates →
      readCandidates message request = some candidates ∧ GroundedList unicode request candidates) ∧
    (AcceptsGrounded unicode message request ↔
      ∀ candidates, readCandidates message request = some candidates →
        GroundedList unicode request candidates →
          ∀ candidate ∈ candidates, QuoteIsMet unicode request candidate) := by
  simp only [AcceptsGrounded, parseClaimDetectionDraft_eq_ok_iff valid]
  constructor
  · rintro candidates ⟨read, grounded, -⟩
    exact ⟨read, grounded⟩
  · constructor
    · intro accepts candidates read grounded
      exact ((accepts candidates).mpr ⟨read, grounded⟩).2.2
    · intro allMet candidates
      constructor
      · rintro ⟨read, grounded, -⟩
        exact ⟨read, grounded⟩
      · rintro ⟨read, grounded⟩
        exact ⟨read, grounded, allMet candidates read grounded⟩

end Valid

section Overlapping

/-- The tables for texts in ASCII. -/
def asciiTables : Unicode where
  nfkc := id
  charLowercase := fun c => [c.toLower]
  toLowercase := List.map Char.toLower
  isAlphanumeric := Char.isAlphanum

def plainTurn (id : String) (startMs endMs : Nat) (text : String) : DetectionTurn where
  id
  speakerId := none
  sourceKind := none
  startMs
  endMs
  text

def repeatedTurns : List DetectionTurn :=
  [plainTurn "a" 0 1000 "we 1 a 1", plainTurn "b" 1000 2000 "a 1x more"]

/-- The text of its turns is `we 1 a 1 a 1x more`. -/
def repeatedRequest : DetectionRequest where
  turns := repeatedTurns
  requiredTurnIds := ["b"]
  existingClaimKeys := []

def quoting (exactQuote : String) : DetectionCandidate where
  exactQuote
  normalizedClaim := "One is followed by one."
  segmentIds := ["a", "b"]
  checkworthy := true
  consequenceScore := 1
  disputeLikelihoodScore := 1
  specificityScore := 1
  timeSensitive := false
  selectionRationale := "It can be checked."

def replyQuoting (exactQuote : String) : List ReplyContent :=
  [.toolRequest (.ok ⟨liveClaimDetectionToolName, some [("candidates", .array [.object [
    ("exactQuote", .string exactQuote), ("normalizedClaim", .string "One is followed by one."),
    ("segmentIds", .array [.string "T1", .string "T2"]), ("checkworthy", .bool true),
    ("consequenceScore", .number (.float 1)), ("disputeLikelihoodScore", .number (.float 1)),
    ("specificityScore", .number (.float 1)), ("timeSensitive", .bool false),
    ("selectionRationale", .string "It can be checked.")]])]⟩)]

theorem validate_repeated : validateClaimDetectionRequest repeatedRequest = .ok ⟨⟩ := by
  decide +kernel

theorem citesTurns_repeated (exactQuote : String) :
    CitesTurns repeatedRequest (quoting exactQuote) repeatedTurns :=
  ⟨rfl, [], [], rfl⟩

theorem belongTogether_repeated : BelongTogether repeatedRequest repeatedTurns := by
  have checked : (repeatedTurns.filterMap DetectionTurn.speakerId).dedup.length ≤ 1 ∧
      (repeatedTurns.filterMap DetectionTurn.sourceKind).dedup.length ≤ 1 ∧
      repeatedTurns.IsChain fun first second =>
        second.startMs - first.endMs ≤ maxDetectedClaimTurnGapMs := by
    decide
  obtain ⟨speaker, source, gaps⟩ := checked
  constructor
  · decide
  · decide
  · decide
  · exact (atMostOne_iff _ _).mp speaker
  · exact (atMostOne_iff _ _).mp source
  · exact (gaps_iff _).mp gaps

theorem groundedList_repeated {exactQuote : String}
    (passes : PassesFields asciiTables (quoting exactQuote))
    (backed : Backed asciiTables exactQuote.toList repeatedTurns) :
    GroundedList asciiTables repeatedRequest [quoting exactQuote] := by
  constructor
  · simp
  · rw [forall_mem_singleton]
    exact passes
  · rw [forall_mem_singleton]
    exact ⟨_, citesTurns_repeated exactQuote, belongTogether_repeated, backed⟩
  · rw [forall_mem_singleton]
    exact forall_mem_nil _
  · exact nodup_singleton _
  · exact nodup_singleton _

/-- A quote that stands once is met, and its reply is accepted. -/
theorem acceptsGrounded_quoting :
    AcceptsGrounded asciiTables (replyQuoting "1 a 1 a") repeatedRequest := by
  apply (acceptsGrounded_iff validate_repeated (replyQuoting "1 a 1 a")).2.mpr
  intro candidates read _ candidate member cited cites
  have isRead : readCandidates (replyQuoting "1 a 1 a") repeatedRequest =
      some [quoting "1 a 1 a"] := by
    decide +kernel
  obtain rfl := Option.some.inj (read.symm.trans isRead)
  obtain rfl := mem_singleton.mp member
  obtain rfl := (citesTurns_repeated "1 a 1 a").unique
    (of_validateClaimDetectionRequest validate_repeated).1 (by decide) cites
  exact (quoteIsBacked_iff (by decide) (cites.notBlank validate_repeated)).mp (by decide +kernel)

/-- The quote `1 a 1` stands in the first turn, and once more from the end of this into the
second turn.  Only the first occurrence is met, and the reply is rejected. -/
theorem not_acceptsGrounded :
    ¬∀ (unicode : Unicode) (message : List ReplyContent) (request : DetectionRequest),
      validateClaimDetectionRequest request = .ok ⟨⟩ →
        AcceptsGrounded unicode message request := by
  intro accepts
  have backed : Backed asciiTables "1 a 1".toList repeatedTurns := by
    apply (backed_iff ((citesTurns_repeated "1 a 1").notBlank validate_repeated)).mpr
    exact ⟨"we 1 a ".toList, "x more".toList, by decide +kernel, by decide +kernel⟩
  have grounded := @groundedList_repeated "1 a 1" (by decide +kernel) backed
  have accepted := (accepts asciiTables (replyQuoting "1 a 1") repeatedRequest validate_repeated
    [quoting "1 a 1"]).mpr ⟨by decide +kernel, grounded⟩
  have rejected : parseClaimDetectionDraft asciiTables (replyQuoting "1 a 1") repeatedRequest =
      .error .invalidModelResponse := by
    decide +kernel
  rw [rejected] at accepted
  cases accepted

end Overlapping

end Obelus.Live.FactCheckModel
