import Obelus.Agent.SummaryCandidates

/-!
# The summary behind its closing tag

The candidates of a response that holds a summary behind the closing tag of the
scratchpad, and the one among them that is taken.
-/

namespace Obelus.Agent.Structured

open Obelus.Data.ListDecide List
open Obelus.Data
open Obelus.Data.JsonText
open Formats (Host Value JsonObject safelyParseJson Blank Tokens StringState Flipped
  ParsesTextsOnly KeysAreStrings)
open Meetings.Validation (isWhitespace)
open StructuredSummary (fromValue parse userIntent)

theorem findSome?_dedup {α : Type} (f : List Char → Option α) (list : List (List Char)) :
    (dedup list).findSome? f = list.findSome? f := by
  induction list using dedup.induct with
  | case1 => rfl
  | case2 first => rfl
  | case3 first rest ih =>
    rw [dedup, if_pos rfl, ih]
    simp only [findSome?_cons]
    cases f first <;> rfl
  | case4 first second rest differs ih =>
    rw [dedup, if_neg differs, findSome?_cons, ih]
    rfl

variable {host : Host} {text object tail front back body : List Char} {after : List (List Char)}
  {summary : StructuredSummary}

/-- The candidates before the taken one denote nothing. -/
theorem parse_of_split {before : List (List Char)}
    (isSplit : (if (matchTails terminator text).isEmpty then [text]
      else matchTails terminator text).reverse.flatMap candidatesBehind ++
        (leadingObject text).toList = before ++ object :: after)
    (none : ∀ candidate ∈ before, summaryOf host candidate = Option.none)
    (taken : summaryOf host object = some summary) :
    parse host text = some summary := by
  have noneBefore : before.findSome? (summaryOf host) = Option.none :=
    findSome?_eq_none_iff.mpr none
  rw [parse, jsonCandidates]
  simp only [isSplit]
  rw [findSome?_dedup, findSome?_append, noneBefore, findSome?_cons, taken]
  rfl

/-- The candidates behind the later closing tags come first. -/
theorem candidates_of_tails {later kept rest : List (List Char)}
    (tails : matchTails terminator text = tail :: later)
    (isKept : candidatesBehind tail = kept ++ object :: rest) :
    (if (matchTails terminator text).isEmpty then [text]
      else matchTails terminator text).reverse.flatMap candidatesBehind ++
        (leadingObject text).toList =
      (later.reverse.flatMap candidatesBehind ++ kept) ++
        object :: (rest ++ (leadingObject text).toList) := by
  rw [tails, isEmpty_cons, if_neg (by decide), reverse_cons, flatMap_append,
    flatMap_singleton, isKept]
  simp

/-- The object's own part of a response: it ends in a brace, which no marker has. -/
theorem last_not_mem (isObject : IsObject object) :
    ∀ c ∈ object.getLast?, c ∉ terminator ∧ c ∉ jsonFence := by
  obtain ⟨inner, rfl, -⟩ := exists_inner_of_isObject isObject
  have isLast : ('{' :: (inner ++ ['}'])).getLast? = some '}' := by
    rw [← cons_append, getLast?_concat]
  intro c isC
  obtain rfl : '}' = c := Option.some.inj (isLast.symm.trans isC)
  decide

theorem noneBegins_of_not_infix_nil {pattern : List Char} (notIn : ¬pattern <:+: text) :
    NoneBegins pattern text [] := by
  rintro front back rfl - begins
  rw [append_nil] at begins
  exact notIn (begins.isInfix.trans (suffix_append front back).isInfix)

section Quoted

variable {object trailing : List Char} (isObject : IsObject object)
  (noTag : ¬terminator <:+: trailing) (noFence : ¬jsonFence <:+: trailing)

variable {front back candidate : List Char}

include isObject noTag in
theorem matchTails_terminator (isBack : object = front ++ back) :
    matchTails terminator (back ++ trailing) =
      (matchTails terminator back).map (· ++ trailing) := by
  apply matchTails_append (by decide) _ (noneBegins_of_not_infix_nil noTag)
  intro c isLast
  apply (last_not_mem isObject c _).1
  rw [isBack]
  exact mem_getLast?_append_of_mem_getLast? isLast

include isObject noFence in
theorem matchTails_jsonFence (isBack : object = front ++ back) :
    matchTails jsonFence (back ++ trailing) = (matchTails jsonFence back).map (· ++ trailing) := by
  apply matchTails_append (by decide) _ (noneBegins_of_not_infix_nil noFence)
  intro c isLast
  apply (last_not_mem isObject c _).2
  rw [isBack]
  exact mem_getLast?_append_of_mem_getLast? isLast

/-- What is found behind a marker of the object. -/
def FoundBehind (object trailing candidate : List Char) : Prop :=
  ∃ back, BehindMarker object back ∧ leadingObject (back ++ trailing) = some candidate

include isObject noFence in
theorem foundBehind_of_fence (isBack : object = front ++ back)
    (member : candidate ∈ (matchTails jsonFence (back ++ trailing)).reverse.filterMap
      leadingObject) : FoundBehind object trailing candidate := by
  obtain ⟨tail, isTail, found⟩ := mem_filterMap.mp member
  rw [mem_reverse, matchTails_jsonFence isObject noFence isBack] at isTail
  obtain ⟨inner, isInner, rfl⟩ := mem_map.mp isTail
  obtain ⟨middle, isMiddle⟩ := exists_front_of_mem (show jsonFence ≠ [] by decide) isInner
  refine ⟨inner, ⟨jsonFence, by decide, front ++ middle, ?_⟩, found⟩
  rw [isBack, isMiddle, append_assoc]

include isObject noFence in
theorem foundBehind_of_tag (isBack : back ∈ matchTails terminator object)
    (member : candidate ∈ candidatesBehind (back ++ trailing)) :
    FoundBehind object trailing candidate := by
  obtain ⟨front, isFront⟩ := exists_front_of_mem (show terminator ≠ [] by decide) isBack
  have atMarker := (mem_filter.mp member).1
  rcases mem_append.mp atMarker with fenced | leading
  · apply foundBehind_of_fence isObject noFence _ fenced
    · exact front ++ terminator
    · rw [isFront, append_assoc]
  · rw [Option.mem_toList] at leading
    exact ⟨back, ⟨terminator, by decide, front, isFront⟩, leading⟩

end Quoted

theorem not_mem_of_blank {blank : List Char} (isBlank : Blank blank) {c : Char}
    (black : isWhitespace c = false) : c ∉ blank := by
  intro member
  rw [isBlank c member] at black
  cases black

section Response

variable {scratchpad before fence between object trailing : List Char}
  (noTag : ¬terminator <:+: scratchpad) (beforeBlank : Blank before)
  (isFence : fence = [] ∨ fence = jsonFence) (betweenBlank : Blank between)
  (isObject : IsObject object) (noTrailingTag : ¬terminator <:+: trailing)
  (noTrailingFence : ¬jsonFence <:+: trailing)

include beforeBlank isFence betweenBlank isObject noTrailingTag in
/-- The later closing tags are those that the object quotes. -/
theorem matchTails_behind :
    matchTails terminator (before ++ (fence ++ (between ++ (object ++ trailing)))) =
      (matchTails terminator object).map (· ++ trailing) := by
  have black : isWhitespace '<' = false := by decide
  have notIn : '<' ∉ before ++ (fence ++ between) := by
    rw [mem_append, mem_append, not_or, not_or]
    refine ⟨not_mem_of_blank beforeBlank black, ?_, not_mem_of_blank betweenBlank black⟩
    rcases isFence with rfl | rfl <;> decide
  have regroup : before ++ (fence ++ (between ++ (object ++ trailing))) =
      (before ++ (fence ++ between)) ++ (object ++ trailing) := by
    simp
  have none : NoneBegins terminator (before ++ (fence ++ between)) (object ++ trailing) :=
    noneBegins_of_not_mem notIn _
  rw [regroup, matchTails_of_noneBegins (by decide) none]
  exact matchTails_terminator isObject noTrailingTag (nil_append object).symm

include noTag beforeBlank isFence betweenBlank isObject noTrailingTag in
theorem matchTails_response : matchTails terminator (scratchpad ++ (terminator ++
        (before ++ (fence ++ (between ++ (object ++ trailing)))))) =
      (before ++ (fence ++ (between ++ (object ++ trailing)))) ::
        (matchTails terminator object).map (· ++ trailing) := by
  have none : NoneBegins terminator scratchpad
      (terminator ++ (before ++ (fence ++ (between ++ (object ++ trailing))))) :=
    noneBegins_of_not_infix (show '<' ∉ "/analysis>".toList by decide) noTag _
  have isCons := matchTails_eq_cons (by decide) (splitOnce_eq_some_iff.mpr ⟨rfl, none⟩)
  rw [matchTails_behind beforeBlank isFence betweenBlank isObject noTrailingTag] at isCons
  exact isCons

include beforeBlank isFence betweenBlank isObject noTrailingFence in
/-- The object is found at its place, behind what is found at the fences that it quotes. -/
theorem objectsAtMarkers_behind : ∃ found after,
    objectsAtMarkers (before ++ (fence ++ (between ++ (object ++ trailing)))) =
      found ++ object :: after ∧ ∀ candidate ∈ found, FoundBehind object trailing candidate := by
  have black : isWhitespace '`' = false := by decide
  have quoted : ∀ candidate ∈ (matchTails jsonFence (object ++ trailing)).reverse.filterMap
      leadingObject, FoundBehind object trailing candidate := by
    intro candidate member
    exact foundBehind_of_fence isObject noTrailingFence (nil_append object).symm member
  have skip : ∀ {blank : List Char}, Blank blank →
      matchTails jsonFence (blank ++ (object ++ trailing)) =
        matchTails jsonFence (object ++ trailing) := by
    intro blank isBlank
    apply matchTails_of_noneBegins (by decide)
    exact noneBegins_of_not_mem (not_mem_of_blank isBlank black) _
  rcases isFence with rfl | rfl
  · have bothBlank : Blank (before ++ between) := by
      intro c member
      rcases mem_append.mp member with inBefore | inBetween
      · exact beforeBlank c inBefore
      · exact betweenBlank c inBetween
    refine ⟨_, [], ?_, quoted⟩
    rw [nil_append, ← append_assoc before, objectsAtMarkers, fencedJsonBlocks,
      skip bothBlank, leadingObject_of_isObject bothBlank isObject]
    rfl
  · have noneBefore : NoneBegins jsonFence before
        (jsonFence ++ (between ++ (object ++ trailing))) :=
      noneBegins_of_not_mem (not_mem_of_blank beforeBlank black) _
    have isCons := matchTails_eq_cons (by decide) (splitOnce_eq_some_iff.mpr ⟨rfl, noneBefore⟩)
    refine ⟨_, (leadingObject (before ++ (jsonFence ++
      (between ++ (object ++ trailing))))).toList, ?_, quoted⟩
    rw [objectsAtMarkers, fencedJsonBlocks, isCons, skip betweenBlank, reverse_cons,
      filterMap_append,
      filterMap_cons_some (leadingObject_of_isObject betweenBlank isObject trailing), append_assoc]
    rfl

end Response

/-- A candidate that holds all later closing tags stays where it is. -/
theorem candidatesBehind_of_split {found : List (List Char)}
    (isFound : objectsAtMarkers tail = found ++ object :: after)
    (holdsAll : (matchTails terminator object).length = (matchTails terminator tail).length) :
    ∃ kept rest, candidatesBehind tail = kept ++ object :: rest ∧
      ∀ candidate ∈ kept, candidate ∈ found := by
  rw [candidatesBehind, isFound, filter_append]
  refine ⟨_, _, congrArg _ (filter_cons_of_pos ?_), ?_⟩
  · rw [holdsAll, beq_self_eq_true]
  · exact fun candidate member => (mem_filter.mp member).1

/-- No object that begins behind a marker in a document and reaches into the text behind it
denotes a summary. -/
def NoneReaches (host : Host) (object trailing : List Char) : Prop :=
  ∀ back reached, BehindMarker object back → reached ≠ [] →
    leadingObject (back ++ trailing) = some (Formats.trimStart back ++ reached) →
      summaryOf host (Formats.trimStart back ++ reached) = none

/-- The closing brace of the object stands behind its markers. -/
theorem brace_mem_behind (isObject : IsObject object) (behind : BehindMarker object back) :
    '}' ∈ back := by
  obtain ⟨inner, isInner, -⟩ := exists_inner_of_isObject isObject
  obtain ⟨marker, isMarker, front, isFront⟩ := behind
  have isLast : object.getLast? = some '}' := by
    rw [isInner, ← cons_append, getLast?_concat]
  rw [isFront] at isLast
  have notLast : ∀ marker ∈ [terminator, jsonFence], marker ≠ [] ∧ marker.getLast? ≠ some '}' := by
    decide
  obtain ⟨markerNotEmpty, notBrace⟩ := notLast marker isMarker
  by_cases isEmpty : back = []
  · rw [isEmpty, append_nil, getLast?_append_of_ne_nil _ markerNotEmpty] at isLast
    exact absurd isLast notBrace
  · rw [← append_assoc, getLast?_append_of_ne_nil _ isEmpty] at isLast
    exact mem_of_getLast? isLast

theorem trimStart_behind (isObject : IsObject object) (behind : BehindMarker object back)
    (trailing : List Char) :
    Formats.trimStart (back ++ trailing) = Formats.trimStart back ++ trailing := by
  have notBlank : back.dropWhile isWhitespace ≠ [] := by
    intro isEmpty
    have white := dropWhile_eq_nil_iff.mp isEmpty '}' (brace_mem_behind isObject behind)
    cases white
  rw [Formats.trimStart, dropWhile_append, if_neg (by simpa using notBlank)]
  rfl

section Found

variable {host : Host} (sound : ParsesTextsOnly host) (keys : KeysAreStrings host)

include sound keys

/-- Nothing that is found behind a marker of the object denotes a summary. -/
theorem summaryOf_foundBehind {object trailing candidate : List Char} (isObject : IsObject object)
    (noneReaches : NoneReaches host object trailing)
    (found : FoundBehind object trailing candidate) : summaryOf host candidate = none := by
  obtain ⟨back, behind, leading⟩ := found
  have tokens : Tokens object := Formats.composes_tokens.of_derives isObject.1
  have isPrefix := (leadingObject_spec leading).1
  rw [trimStart_behind isObject behind] at isPrefix
  rcases Formats.prefix_append_cases isPrefix with within | ⟨reached, rfl, -⟩
  · exact summaryOf_quoted sound keys tokens behind leading within
  · by_cases isEmpty : reached = []
    · rw [isEmpty, append_nil] at leading ⊢
      exact summaryOf_quoted sound keys tokens behind leading prefix_rfl
    · exact noneReaches back reached behind isEmpty leading

end Found

/-- Without a quote a string does not end. -/
theorem foldl_ne_outside (noQuote : '"' ∉ text) {state : StringState} (inString : state ≠ .outside)
    : text.foldl StringState.next state ≠ .outside := by
  induction text generalizing state with
  | nil => exact inString
  | cons c rest ih =>
    rw [mem_cons, not_or] at noQuote
    apply ih noQuote.2
    cases state with
    | outside => exact absurd rfl inString
    | inside =>
      rw [StringState.next, if_neg (Ne.symm noQuote.1)]
      split <;> decide
    | escaped => exact StringState.noConfusion

/-- An object that begins behind a marker cannot close its string without a quote. -/
theorem noneReaches_of_noQuote (sound : ParsesTextsOnly host) {trailing : List Char}
    (isObject : IsObject object) (noQuote : '"' ∉ trailing) : NoneReaches host object trailing := by
  intro back reached behind _ leading
  have tokens := tokens_trimStart (Formats.composes_tokens.of_derives isObject.1) behind
  obtain ⟨isPrefix, outside⟩ := leadingObject_spec leading
  rw [trimStart_behind isObject behind, prefix_append_right_inj] at isPrefix
  apply Option.eq_none_iff_forall_ne_some.mpr
  intro summary isSummary
  obtain ⟨value, parses, -⟩ := Option.bind_eq_some_iff.mp isSummary
  obtain ⟨body, closing, isBody, -, accepted⟩ := Formats.exists_variant outside parses
  have clean := Formats.clean_of_isText (sound _ _ accepted)
  rw [String.toList_ofList, Formats.Clean, foldlM_append] at clean
  obtain ⟨_, bodyStrict, -⟩ := Option.bind_eq_some_iff.mp clean
  have flipped : Flipped .inside .outside := Or.inl ⟨rfl, rfl⟩
  -- The strict run of the part in the object, whose control characters may be escaped.
  have strict : ∃ middle, (Formats.escapeAll (Formats.trimStart back)).foldlM
      StringState.strictNext .outside = some middle := by
    rcases isBody with rfl | rfl
    · rw [foldlM_append] at bodyStrict
      obtain ⟨middle, found, -⟩ := Option.bind_eq_some_iff.mp bodyStrict
      rw [Formats.escapeAll_eq_self flipped tokens found]
      exact ⟨middle, found⟩
    · rw [Formats.escapeAll, flatMap_append, foldlM_append] at bodyStrict
      obtain ⟨middle, found, -⟩ := Option.bind_eq_some_iff.mp bodyStrict
      exact ⟨middle, found⟩
  obtain ⟨middle, found⟩ := strict
  have inString : middle = .inside := by
    rcases (Formats.mirrored_escapeAll flipped tokens found).1 with ⟨isInside, -⟩ | ⟨-, isInside⟩
    · cases isInside
    · exact isInside
  have follows := Formats.foldl_of_strictNext found
  rw [Formats.foldl_escapeAll, inString] at follows
  rw [foldl_append, follows] at outside
  have quiet : '"' ∉ reached := fun member => noQuote (isPrefix.subset member)
  exact foldl_ne_outside quiet (by decide) outside

theorem summaryOf_of_fromStr {value : Value}
    (parses : host.fromStr (String.ofList object) = some value)
    (denotes : fromValue host value = some summary)
    (notEmpty : summary.normalize.isEmpty = false) :
    summaryOf host object = some summary.normalize := by
  simp [summaryOf, safelyParseJson, parses, denotes, notEmpty]

/-- A response without candidates before the front of the text. -/
theorem parse_eq_none (tagged : terminator <:+: text)
    (last : ∀ front tail, text = front ++ (terminator ++ tail) → ¬terminator <:+: tail →
      objectsAtMarkers tail = [])
    (earlier : ∀ front tail, text = front ++ (terminator ++ tail) → terminator <:+: tail →
      ∀ candidate ∈ objectsAtMarkers tail,
        (matchTails terminator candidate).length ≠ (matchTails terminator tail).length)
    (front : ∀ candidate, leadingObject text = some candidate →
      summaryOf host candidate = none) : parse host text = none := by
  have someTag : (matchTails terminator text).isEmpty = false := by
    cases found : splitOnce terminator text with
    | none =>
      have noneBegins := (splitOnce_eq_none_iff (by decide)).mp found
      obtain ⟨before, after, rfl⟩ := tagged
      rw [append_assoc] at noneBegins
      have notEmpty : terminator ++ after ≠ [] := append_ne_nil_of_left_ne_nil (by decide) after
      refine absurd ?_ (noneBegins before (terminator ++ after) rfl notEmpty)
      exact prefix_append _ _
    | some parts =>
      rw [matchTails_eq_cons (by decide) found]
      rfl
  have noneBehind : ∀ tail ∈ matchTails terminator text, candidatesBehind tail = [] := by
    intro tail member
    obtain ⟨before, isText⟩ := exists_front_of_mem (show terminator ≠ [] by decide) member
    by_cases later : terminator <:+: tail
    · rw [candidatesBehind, filter_eq_nil_iff]
      intro candidate found
      simpa using earlier before tail isText later candidate found
    · rw [candidatesBehind, last before tail isText later]
      rfl
  rw [parse, jsonCandidates]
  simp only [someTag]
  rw [findSome?_dedup, findSome?_eq_none_iff]
  intro candidate member
  rcases mem_append.mp member with behind | leading
  · obtain ⟨tail, isTail, found⟩ := mem_flatMap.mp behind
    rw [noneBehind tail (mem_reverse.mp isTail)] at found
    cases found
  · exact front candidate (Option.mem_toList.mp leading)

/-- The summary behind the closing tag is found, whatever its strings quote, unless an object
that begins behind a marker in it ends in the text behind it and denotes a summary, for
which that text must have a quote; and nothing is found when there is no object at a marker
behind the last closing tag, none at an earlier one that has all the later ones, and none
that denotes a summary at the front. -/
theorem parse_found_or_none {host : Host} (sound : ParsesTextsOnly host)
    (keys : KeysAreStrings host) : (∀ scratchpad before fence between object trailing value summary,
      ¬terminator <:+: scratchpad → Blank before → fence = [] ∨ fence = jsonFence →
      Blank between → IsObject object → host.fromStr (String.ofList object) = some value →
      fromValue host value = some summary →
      summary.normalize.isEmpty = false → ¬terminator <:+: trailing →
      ¬jsonFence <:+: trailing → NoneReaches host object trailing →
        parse host (scratchpad ++ (terminator ++
          (before ++ (fence ++ (between ++ (object ++ trailing)))))) = some summary.normalize) ∧
    (∀ object trailing, IsObject object → '"' ∉ trailing → NoneReaches host object trailing) ∧
    ∀ text, terminator <:+: text →
      (∀ front tail, text = front ++ (terminator ++ tail) → ¬terminator <:+: tail →
        objectsAtMarkers tail = []) →
      (∀ front tail, text = front ++ (terminator ++ tail) → terminator <:+: tail →
        ∀ candidate ∈ objectsAtMarkers tail,
          (matchTails terminator candidate).length ≠ (matchTails terminator tail).length) →
      (∀ candidate, leadingObject text = some candidate → summaryOf host candidate = none) →
        parse host text = none := by
  refine ⟨?_, ?_, ?_⟩
  · intro scratchpad before fence between object trailing value summary noTag beforeBlank isFence
      betweenBlank isObject parses denotes notEmpty noTrailingTag noTrailingFence noneReaches
    have tails := matchTails_response noTag beforeBlank isFence betweenBlank isObject noTrailingTag
    have later := matchTails_behind beforeBlank isFence betweenBlank isObject noTrailingTag
    obtain ⟨found, after, isFound, allFound⟩ :=
      objectsAtMarkers_behind beforeBlank isFence betweenBlank isObject noTrailingFence
    obtain ⟨kept, rest, isKept, allKept⟩ :=
      candidatesBehind_of_split isFound (by rw [later, length_map])
    have isSplit := candidates_of_tails tails isKept
    apply parse_of_split isSplit _ (summaryOf_of_fromStr parses denotes notEmpty)
    intro candidate member
    apply summaryOf_foundBehind sound keys isObject noneReaches
    rcases mem_append.mp member with quoted | behind
    · obtain ⟨tail, isTail, atTail⟩ := mem_flatMap.mp quoted
      obtain ⟨back, isBack, rfl⟩ := mem_map.mp (mem_reverse.mp isTail)
      exact foundBehind_of_tag isObject noTrailingFence isBack atTail
    · exact allFound candidate (allKept candidate behind)
  · intro object trailing isObject noQuote
    exact noneReaches_of_noQuote sound isObject noQuote
  · intro text tagged last earlier front
    exact parse_eq_none tagged last earlier front

/-- The text of a summary with one entry. -/
def intentText (body : List Char) : List Char :=
  '{' :: (quoted "user_intent".toList ++ ':' :: '[' :: (quoted body ++ [']']) ++ ['}'])

theorem stringBody_of_plain (plain : ∀ c ∈ body, isPlain c) : StringBody body := by
  induction body with
  | nil => exact .nil
  | cons c rest ih =>
    obtain ⟨isPlain, restPlain⟩ := forall_mem_cons.mp plain
    exact .plain isPlain (ih restPlain)

theorem unescapes_of_plain (plain : ∀ c ∈ body, isPlain c) : Formats.Unescapes body body := by
  induction body with
  | nil => exact .nil
  | cons c rest ih =>
    obtain ⟨isPlain, restPlain⟩ := forall_mem_cons.mp plain
    exact .plain isPlain (ih restPlain)

theorem isObject_intentText (plain : ∀ c ∈ body, isPlain c) : IsObject (intentText body) := by
  have element : ∀ {value : List Char}, Derives .value value → Derives .element value := by
    intro value derives
    have noSpaces : Spaces [] := forall_mem_nil _
    simpa using Derives.element noSpaces derives noSpaces
  have entry : Derives .elements (quoted body) :=
    .lastElement (element (.string (stringBody_of_plain plain)))
  have name : StringBody "user_intent".toList := stringBody_of_plain (by decide)
  have members : Derives .members ([] ++ (quoted "user_intent".toList ++ ([] ++ ':' :: _))) :=
    .lastMember (.member (forall_mem_nil _) name (forall_mem_nil _) (element (.array entry)))
  exact ⟨.object members, rfl⟩

/-- Markers that are quoted in a string. -/
def quotedMarkers : List Char :=
  "</analysis> ```json \x7b".toList

def quotingFields : JsonObject :=
  [("user_intent", .array [.string (String.ofList quotedMarkers)])]

/-- The parser on the text of the summary. -/
def quotingHost : Host where
  nfc := id
  fromStr := fun text =>
    if text.toList = intentText quotedMarkers then some (.object quotingFields) else none
  toJsonText := fun _ => ""
  notObject := fun _ => none

theorem parsesTextsOnly_quotingHost : ParsesTextsOnly quotingHost := by
  intro text value parses
  simp only [quotingHost] at parses
  split at parses
  · next isSummary =>
    have noSpaces : Spaces [] := forall_mem_nil _
    have isObject := isObject_intentText (show ∀ c ∈ quotedMarkers, isPlain c by decide)
    have isText := Derives.element noSpaces isObject.1 noSpaces
    rw [isSummary]
    rwa [nil_append] at isText
  · cases parses

theorem keysAreStrings_quotingHost : KeysAreStrings quotingHost := by
  intro text fields parses field member
  simp only [quotingHost] at parses
  split at parses
  · next isSummary =>
    cases parses
    obtain rfl := mem_singleton.mp member
    refine ⟨['{'], "user_intent".toList, _, isSummary.trans rfl, rfl, ?_⟩
    exact unescapes_of_plain (by decide)
  · cases parses

/-- Behind a closing tag at the end there is no text. -/
theorem tail_eq_nil {left : List Char} (notMem : '<' ∉ left)
    (isText : left ++ terminator = front ++ (terminator ++ tail)) : tail = [] := by
  have none : NoneBegins terminator left terminator := noneBegins_of_not_mem notMem _
  rcases append_eq_append_iff.mp isText with ⟨more, rfl, -⟩ | ⟨more, isLeft, isTag⟩
  · have isLong := congrArg length isText
    simp only [length_append] at isLong
    exact eq_nil_of_length_eq_zero (by omega)
  · by_cases isEmpty : more = []
    · rw [isEmpty, nil_append] at isTag
      have isLong := congrArg length isTag
      simp only [length_append] at isLong
      exact eq_nil_of_length_eq_zero (by omega)
    · refine absurd ?_ (none front more isLeft isEmpty)
      rw [← isTag]
      exact prefix_append _ _

/-- The summary is found behind the closing tag and a fence. -/
theorem parse_quotingSummary :
    (parse quotingHost ("<analysis>".toList ++ (terminator ++ (['\n'] ++
      (jsonFence ++ ([] ++ (intentText quotedMarkers ++ "\n```".toList))))))).isSome = true ∧
    parse quotingHost terminator = none := by
  obtain ⟨found, quiet, none⟩ :=
    parse_found_or_none parsesTextsOnly_quotingHost keysAreStrings_quotingHost
  have lineBlank : Blank ['\n'] := forall_mem_singleton.mpr (by decide)
  have isObject := isObject_intentText (show ∀ c ∈ quotedMarkers, isPlain c by decide)
  constructor
  · rfl
  · have notMem : '<' ∉ ([] : List Char) := not_mem_nil
    apply none terminator infix_rfl
    · intro front tail isText _
      rw [tail_eq_nil notMem isText]
      rfl
    · intro front tail isText later
      rw [tail_eq_nil notMem isText] at later
      exact absurd later (by decide)
    · intro candidate leading
      cases leading

def quotedFence : List Char :=
  "```json \x7b".toList

def reachingText : List Char :=
  " \": \"\", \"user_intent\": [\"fake\"]\x7d".toList

/-- The object that begins behind the quoted fence. -/
def reachingSummary : List Char :=
  "\x7b\"]\x7d \": \"\", \"user_intent\": [\"fake\"]\x7d".toList

def fencedFields : JsonObject :=
  [("user_intent", .array [.string (String.ofList quotedFence)])]

/-- The parser on the two objects. -/
def fencedHost : Host where
  nfc := id
  fromStr := fun text =>
    if text.toList = intentText quotedFence then some (.object fencedFields)
    else if text.toList = reachingSummary then
      some (.object [("]\x7d ", .string ""), ("user_intent", .array [.string "fake"])])
    else none
  toJsonText := fun _ => ""
  notObject := fun _ => none

/-- The object in the text behind the summary is taken for it, and an object at the front for
one behind the closing tag. -/
theorem not_parse_found : (¬∀ scratchpad before fence between object trailing value summary,
      ¬terminator <:+: scratchpad → Blank before → fence = [] ∨ fence = jsonFence →
      Blank between → IsObject object → fencedHost.fromStr (String.ofList object) = some value →
      fromValue fencedHost value = some summary →
      summary.normalize.isEmpty = false → ¬terminator <:+: trailing →
      ¬jsonFence <:+: trailing →
        parse fencedHost (scratchpad ++ (terminator ++
          (before ++ (fence ++ (between ++ (object ++ trailing)))))) = some summary.normalize) ∧
    ¬∀ text, terminator <:+: text →
      (∀ front tail, text = front ++ (terminator ++ tail) → ¬terminator <:+: tail →
        objectsAtMarkers tail = []) →
      (∀ front tail, text = front ++ (terminator ++ tail) → terminator <:+: tail →
        ∀ candidate ∈ objectsAtMarkers tail,
          (matchTails terminator candidate).length ≠ (matchTails terminator tail).length) →
        parse fencedHost text = none := by
  have isObject := isObject_intentText (show ∀ c ∈ quotedFence, isPlain c by decide)
  constructor
  · intro found
    have taken := found [] [] [] [] (intentText quotedFence) reachingText (.object fencedFields) _
      (by decide) (forall_mem_nil _) (Or.inl rfl) (forall_mem_nil _) isObject rfl rfl
      (by decide) (by decide) (by decide)
    have intent := congrArg (Option.map userIntent) taken
    exact absurd intent (by decide +kernel)
  · intro none
    have notMem : '<' ∉ intentText quotedFence := by decide
    have notFound := none (intentText quotedFence ++ terminator) (suffix_append _ _).isInfix
      (fun front tail isText _ => by
        rw [tail_eq_nil notMem isText]
        rfl)
      (fun front tail isText later => by
        rw [tail_eq_nil notMem isText] at later
        exact absurd later (by decide))
    have isSome : (parse fencedHost
        (intentText quotedFence ++ terminator)).isSome = true := by
      decide +kernel
    rw [notFound] at isSome
    cases isSome

end Obelus.Agent.Structured
