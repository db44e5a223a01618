import Obelus.Formats.Truncation

/-!
# Arguments that are cut off are not parsed

The text of an object, bare or in a fence or in tags, that is cut off before its
closing brace is no JSON text, and none of the repairs is tried on it: without
its wrapper it looks truncated, and with it it does not begin as a JSON text
begins.
-/

namespace Obelus.Formats

open Obelus.Data.ListDecide List
open Obelus.Data.JsonText
open Meetings.Validation (isWhitespace)
open String (ofList toList_ofList)

/-- The parser accepts complete texts only. -/
def ParsesTextsOnly (host : Host) : Prop :=
  ∀ text value, host.fromStr text = some value → IsText text.toList

theorem fromStr_of_truncated {host : Host} (sound : ParsesTextsOnly host) {text : String}
    (truncated : looksTruncated text = true) : host.fromStr text = none := by
  apply Option.eq_none_iff_forall_ne_some.mpr
  intro value parses
  rw [looksTruncated_of_isText (sound text value parses)] at truncated
  cases truncated

/-! ## Texts that do not begin as a value -/

/-- After the white space of the grammar there is no beginning of a value. -/
def Startless : List Char → Prop
  | [] => True
  | c :: rest => if c ∈ spaceChars then Startless rest else c ∉ starters

variable {text front rest body gap inner tag : List Char} {c : Char}

theorem not_startless_of_isText (isText : IsText text) : ¬Startless text := by
  obtain ⟨c, isStarter, before, rest, spaces, rfl⟩ := exists_starter_of_isText isText
  clear isText
  induction before with
  | nil =>
    have notSpace : ∀ c ∈ starters, c ∉ spaceChars := by decide
    intro startless
    rw [nil_append, Startless, if_neg (notSpace c isStarter)] at startless
    exact startless isStarter
  | cons first before ih =>
    obtain ⟨isSpace, restSpaces⟩ := forall_mem_cons.mp spaces
    rw [cons_append, Startless, if_pos isSpace]
    exact ih restSpaces

theorem not_mem_starters_of_isWhitespace (white : isWhitespace c = true) : c ∉ starters := by
  have black : ∀ c ∈ starters, isWhitespace c = false := by decide
  intro isStarter
  rw [black c isStarter] at white
  cases white

theorem startless_of_blank (blank : Blank text) : Startless text := by
  induction text with
  | nil => trivial
  | cons c rest ih =>
    obtain ⟨white, restBlank⟩ := forall_mem_cons.mp blank
    rw [Startless]
    split
    · exact ih restBlank
    · exact not_mem_starters_of_isWhitespace white

theorem startless_append_cons (blank : Blank front) (notSpace : c ∉ spaceChars)
    (notStarter : c ∉ starters) (back : List Char) : Startless (front ++ c :: back) := by
  induction front with
  | nil =>
    rw [nil_append, Startless, if_neg notSpace]
    exact notStarter
  | cons first front ih =>
    obtain ⟨white, frontBlank⟩ := forall_mem_cons.mp blank
    rw [cons_append, Startless]
    split
    · exact ih frontBlank
    · exact not_mem_starters_of_isWhitespace white

/-- What comes after the first character of a startless text does not matter. -/
theorem Startless.append (startless : Startless text) (notSpaces : ¬Spaces text) (more : List Char)
    : Startless (text ++ more) := by
  induction text with
  | nil => exact absurd (forall_mem_nil _) notSpaces
  | cons c rest ih =>
    rw [Startless] at startless
    rw [cons_append, Startless]
    by_cases isSpace : c ∈ spaceChars
    · rw [if_pos isSpace] at startless ⊢
      apply ih startless
      intro spaces
      exact notSpaces (forall_mem_cons.mpr ⟨isSpace, spaces⟩)
    · rw [if_neg isSpace] at startless ⊢
      exact startless

/-! ## Repairs of such texts -/

theorem RepairState.repaired_foldl (state : RepairState) (text : List Char) :
    (text.foldl RepairState.push state).repaired = state.repaired ++ text := by
  induction text generalizing state with
  | nil => simp
  | cons c rest ih =>
    have one : (state.push c).repaired = state.repaired ++ [c] := by
      simp only [RepairState.push]
      split_ifs <;> rfl
    rw [foldl_cons, ih, one, append_assoc]
    rfl

/-- The repair follows the strings and the brackets as the scan does. -/
theorem RepairState.follows_scan {state : RepairState} {scanned last : ScanState}
    (inString : state.inString = scanned.inString)
    (escapeNext : state.escapeNext = scanned.escapeNext) (closers : state.closers = scanned.depth)
    (found : text.foldlM ScanState.scan scanned = some last) :
    (text.foldl RepairState.push state).inString = last.inString ∧
      (text.foldl RepairState.push state).escapeNext = last.escapeNext ∧
        (text.foldl RepairState.push state).closers = last.depth := by
  induction text generalizing state scanned with
  | nil =>
    cases found
    exact ⟨inString, escapeNext, closers⟩
  | cons c rest ih =>
    obtain ⟨middle, step, restFound⟩ := Option.bind_eq_some_iff.mp found
    have next : (state.push c).inString = middle.inString ∧
        (state.push c).escapeNext = middle.escapeNext ∧
          (state.push c).closers = middle.depth := by
      simp only [ScanState.scan] at step
      simp only [RepairState.push]
      split_ifs at step ⊢ <;> cases step <;> simp_all
    exact ih next.1 next.2.1 next.2.2 restFound

/-- A text that leaves the scan where it began has nothing to repair. -/
theorem repairTruncatedJson_of_scan {text : String}
    (scanned : text.toList.foldlM ScanState.scan (outsideAt []) = some (outsideAt [])) :
    repairTruncatedJson text = text := by
  obtain ⟨inString, -, closers⟩ :=
    @RepairState.follows_scan text.toList {} (outsideAt []) (outsideAt []) rfl rfl rfl scanned
  have repaired := RepairState.repaired_foldl {} text.toList
  simp only [repairTruncatedJson, inString, closers, repaired]
  simp [outsideAt]

theorem startless_repair {text : String} (startless : Startless text.toList) :
    Startless (repairTruncatedJson text).toList := by
  by_cases spaces : Spaces text.toList
  · rwa [repairTruncatedJson_of_scan ((composes_balanced.of_spaces spaces).whole [])]
  · have repaired := RepairState.repaired_foldl {} text.toList
    have more : ∃ closing, (repairTruncatedJson text).toList = text.toList ++ closing := by
      simp only [repairTruncatedJson, repaired, toList_ofList]
      split
      · exact ⟨_, by rw [append_assoc]; rfl⟩
      · exact ⟨_, rfl⟩
    obtain ⟨closing, equal⟩ := more
    rw [equal]
    exact startless.append spaces closing

theorem exists_escapeControl (c : Char) : ∃ rest, escapeControl c = '\\' :: rest := by
  unfold escapeControl
  split_ifs <;> exact ⟨_, rfl⟩

theorem startless_escape (startless : Startless text) :
    Startless (text.flatMap fun c => if c.val ≤ 0x1F then escapeControl c else [c]) := by
  induction text with
  | nil => trivial
  | cons c rest ih =>
    rw [Startless] at startless
    rw [flatMap_cons]
    by_cases control : c.val ≤ 0x1F
    · obtain ⟨tail, escaped⟩ := exists_escapeControl c
      rw [if_pos control, escaped, cons_append, Startless, if_neg (by decide)]
      decide
    · rw [if_neg control, cons_append, Startless]
      split at startless
      · next isSpace =>
        rw [if_pos isSpace]
        exact ih startless
      · next notSpace =>
        rw [if_neg notSpace]
        exact startless

section Parsing

variable {host : Host} (sound : ParsesTextsOnly host)

include sound

variable {text args : String}

theorem fromStr_of_startless (startless : Startless text.toList) : host.fromStr text = none := by
  apply Option.eq_none_iff_forall_ne_some.mpr
  intro value parses
  exact not_startless_of_isText (sound text value parses) startless

theorem fromStr_repair_of_startless (startless : Startless text.toList) :
    host.fromStr (repairTruncatedJson text) = none :=
  fromStr_of_startless sound (startless_repair startless)

/-- No repair makes a text begin as a value. -/
theorem safelyParseJson_of_startless (startless : Startless text.toList) :
    safelyParseJson host text = none := by
  have escaped : Startless (jsonEscapeControlCharsInString text).toList := by
    rw [jsonEscapeControlCharsInString, toList_ofList]
    exact startless_escape startless
  have first := fromStr_of_startless sound startless
  have second := fromStr_repair_of_startless sound startless
  have third := fromStr_of_startless sound escaped
  have fourth := fromStr_repair_of_startless sound escaped
  rw [safelyParseJson, first]
  simp only [second, third, fourth]

/-- Arguments are not parsed when nothing parses them as they are, and they look
truncated without their wrapper. -/
theorem parseToolArguments_eq_none (nonempty : args.isEmpty = false)
    (notText : host.fromStr args = none)
    (unwrapped : ∀ inner, stripJsonWrapper args = some inner → looksTruncated inner = true)
    (notRepaired : parseRepaired host args = none) : parseToolArguments host args = none := by
  simp only [parseToolArguments, nonempty, notText, notRepaired]
  cases stripped : stripJsonWrapper args with
  | none => rfl
  | some inner =>
    have truncated := unwrapped inner stripped
    simp [fromStr_of_truncated sound truncated, parseRepaired, truncated]

theorem parseToolArguments_of_startless (nonempty : args.isEmpty = false)
    (startless : Startless args.toList)
    (unwrapped : ∀ inner, stripJsonWrapper args = some inner → looksTruncated inner = true) :
    parseToolArguments host args = none := by
  apply parseToolArguments_eq_none sound nonempty (fromStr_of_startless sound startless) unwrapped
  rw [parseRepaired, safelyParseJson_of_startless sound startless]
  split <;> rfl

end Parsing

/-! ## Wrappers -/

theorem blank_nil : Blank [] :=
  forall_mem_nil _

theorem trim_blank (blank : Blank text) : trim text = [] := by
  have none : trimStart text = [] := dropWhile_eq_nil_iff.mpr blank
  rw [trim, none]
  rfl

theorem trimStart_append_cons (blank : Blank front) (black : isWhitespace c = false)
    (back : List Char) : trimStart (front ++ c :: back) = c :: back := by
  rw [trimStart, dropWhile_append_of_pos blank, dropWhile_cons, if_neg (by simp [black])]

theorem trim_append_cons (blank : Blank front) (black : isWhitespace c = false) (back : List Char) :
    trim (front ++ c :: back) = c :: trimEnd back := by
  rw [trim, trimStart_append_cons blank black]
  exact trimEnd_append_cons [] black back

theorem stripPrefix?_eq_some (stripped : stripPrefix? front text = some rest) :
    text = front ++ rest := by
  unfold stripPrefix? at stripped
  split at stripped
  · next isPrefix =>
    obtain ⟨tail, rfl⟩ := isPrefixOf_iff_prefix.mp isPrefix
    cases stripped
    simp
  · cases stripped

theorem stripSuffix?_eq_some {last : List Char} (stripped : stripSuffix? last text = some body) :
    text = body ++ last := by
  unfold stripSuffix? at stripped
  split at stripped
  · next isSuffix =>
    obtain ⟨front, rfl⟩ := isSuffixOf_iff_suffix.mp isSuffix
    cases stripped
    simp
  · cases stripped

/-- A pattern that cannot begin in front of the brace ends a cut only behind it. -/
theorem exists_back_of_prefix {pattern : List Char} {first brace : Char} (absent : first ∉ gap)
    (other : first ≠ brace) (isPrefix : body ++ first :: pattern <+: gap ++ brace :: inner) :
    ∃ back, body = gap ++ brace :: back ∧ back <+: inner := by
  rcases prefix_append_cases isPrefix with inGap | ⟨more, equal, inInner⟩
  · exact absurd (inGap.subset (by simp)) absent
  · rcases append_eq_append_iff.mp equal with ⟨rest, gapEq, patternEq⟩ | ⟨rest, rfl, moreEq⟩
    · cases rest with
      | nil =>
        rw [nil_append] at patternEq
        rw [← patternEq] at inInner
        exact absurd (cons_prefix_cons.mp inInner).1 other
      | cons c rest =>
        obtain ⟨rfl, -⟩ := cons.inj patternEq
        exact absurd (by rw [gapEq]; simp) absent
    · cases rest with
      | nil =>
        rw [moreEq] at inInner
        exact absurd (cons_prefix_cons.mp inInner).1 other
      | cons c back =>
        rw [moreEq] at inInner
        obtain ⟨rfl, inRest⟩ := cons_prefix_cons.mp inInner
        exact ⟨back, rfl, (prefix_append _ _).trans inRest⟩

/-- The name with which the tag is closed. -/
def tagName (tag : List Char) : List Char :=
  (trimStart tag).takeWhile fun c => !isWhitespace c

/-- What stands in front of an object in the text of the arguments: white space,
the beginning of a fence, or an opening tag. -/
inductive Opening : List Char → Prop
  | bare {spaces : List Char} (areSpaces : Spaces spaces) : Opening spaces
  | fence {before between info after : List Char} (beforeBlank : Blank before)
      (betweenBlank : Blank between) (isInfo : info ∈ [[], "json".toList, "JSON".toList])
      (afterBlank : Blank after) :
      Opening (before ++ '`' :: '`' :: '`' :: (between ++ (info ++ after)))
  | tag {before tag after : List Char} (beforeBlank : Blank before) (oneTag : '>' ∉ tag)
      (named : tagName tag ≠ [])
      (isName : ∀ c ∈ tagName tag, c.isAlphanum = true ∨ c = '_' ∨ c = '-')
      (afterBlank : Blank after) : Opening (before ++ '<' :: (tag ++ '>' :: after))

/-- What a fence or tags leave of a cut is the object without its end. -/
theorem looksTruncated_unwrapped {back : List Char} (balanced : Balanced inner) (blank : Blank gap)
    (isPrefix : back <+: inner) :
    looksTruncated (ofList (trim (gap ++ '{' :: back))) = true := by
  have trimmed := trim_append_cons blank (show isWhitespace '{' = false by decide) back
  obtain ⟨rest, equal, -⟩ := exists_trimEnd back
  have shorter : trimEnd back <+: back := ⟨rest, equal.symm⟩
  have truncated := looksTruncated_of_open blank_nil balanced (shorter.trans isPrefix)
  rw [trimmed]
  exact truncated

theorem not_mem_of_blank (blank : Blank text) (black : isWhitespace c = false) : c ∉ text := by
  intro member
  rw [blank c member] at black
  cases black

/-- The body of a fence that is cut off in the object. -/
theorem looksTruncated_of_stripFence {between info after inner rest body : List Char}
    (betweenBlank : Blank between) (isInfo : info ∈ [[], "json".toList, "JSON".toList])
    (afterBlank : Blank after) (balanced : Balanced inner)
    (isPrefix : rest <+: between ++ (info ++ after) ++ '{' :: inner)
    (stripped : stripFence rest = some body) : looksTruncated (ofList body) = true := by
  obtain ⟨fenced, isFenced, rfl⟩ := Option.map_eq_some_iff.mp stripped
  have restEq : rest = fenced ++ '`' :: ['`', '`'] := stripSuffix?_eq_some isFenced
  have absent : '`' ∉ between ++ (info ++ after) := by
    have inInfo : ∀ info ∈ [[], "json".toList, "JSON".toList], '`' ∉ info := by decide
    simp only [mem_append, not_or]
    exact ⟨not_mem_of_blank betweenBlank (by decide), inInfo info isInfo,
      not_mem_of_blank afterBlank (by decide)⟩
  rw [restEq] at isPrefix
  obtain ⟨back, rfl, inInner⟩ := exists_back_of_prefix absent (by decide) isPrefix
  simp only [mem_cons, not_mem_nil, or_false] at isInfo
  rcases isInfo with rfl | rfl | rfl
  · have start : trimStart (between ++ ([] ++ after) ++ '{' :: back) = '{' :: back := by
      apply trimStart_append_cons _ (by decide)
      intro c member
      exact (mem_append.mp member).elim (betweenBlank c) (afterBlank c)
    have truncated := looksTruncated_unwrapped balanced blank_nil inInner
    rw [start]
    exact truncated
  · have start : trimStart (between ++ ("json".toList ++ after) ++ '{' :: back) =
        "json".toList ++ (after ++ '{' :: back) := by
      rw [append_assoc]
      exact trimStart_append_cons betweenBlank (by decide) _
    have truncated := looksTruncated_unwrapped balanced afterBlank inInner
    rw [start]
    exact truncated
  · have start : trimStart (between ++ ("JSON".toList ++ after) ++ '{' :: back) =
        "JSON".toList ++ (after ++ '{' :: back) := by
      rw [append_assoc]
      exact trimStart_append_cons betweenBlank (by decide) _
    have truncated := looksTruncated_unwrapped balanced afterBlank inInner
    rw [start]
    exact truncated

theorem takeWhile_tag (oneTag : '>' ∉ tag) (rest : List Char) :
    ('<' :: (tag ++ rest)).takeWhile (· ≠ '>') = '<' :: (tag ++ rest.takeWhile (· ≠ '>')) := by
  rw [takeWhile_cons_of_pos (by decide), takeWhile_append_of_pos]
  intro c member
  simp only [decide_not, Bool.not_eq_true', decide_eq_false_iff_not]
  rintro rfl
  exact oneTag member

/-- There are no tags where the opening one does not end. -/
theorem stripTags_of_not_mem (oneTag : '>' ∉ text) : stripTags ('<' :: text) = none := by
  have all := takeWhile_tag oneTag []
  rw [takeWhile_nil, append_nil] at all
  simp only [stripTags, all, if_true]

/-- What stands between the tags. -/
theorem exists_of_stripTags {content : List Char} (oneTag : '>' ∉ tag)
    (stripped : stripTags ('<' :: (tag ++ '>' :: content)) = some body) :
    tagName tag ≠ [] ∧ (∀ c ∈ tagName tag, c.isAlphanum = true ∨ c = '_' ∨ c = '-') ∧
      ∃ enclosed, body = trim enclosed ∧
        trimEnd content = enclosed ++ '<' :: ('/' :: (tagName tag ++ ['>'])) := by
  have opening := takeWhile_tag oneTag ('>' :: content)
  have atEnd : ('>' :: content).takeWhile (· ≠ '>') = [] := takeWhile_cons_of_neg (by decide)
  rw [atEnd, append_nil] at opening
  have rest : ('<' :: (tag ++ '>' :: content)).drop (('<' :: tag).length + 1) = content := by
    simp
  simp only [stripTags, opening, rest] at stripped
  split_ifs at stripped with short unnamed notName
  obtain ⟨enclosed, isEnclosed, rfl⟩ := Option.map_eq_some_iff.mp stripped
  refine ⟨?_, ?_, enclosed, rfl, stripSuffix?_eq_some isEnclosed⟩
  · exact fun none => unnamed (isEmpty_iff.mpr none)
  · intro c member
    simp only [Bool.not_eq_true', Bool.not_eq_false] at notName
    have valid := all_eq_true.mp notName c member
    simpa [or_assoc] using valid

/-- The body of a tag that is cut off in the object. -/
theorem looksTruncated_of_stripTags {tag after inner rest body : List Char}
    (oneTag : '>' ∉ tag) (afterBlank : Blank after) (balanced : Balanced inner)
    (isPrefix : rest <+: tag ++ '>' :: (after ++ '{' :: inner))
    (stripped : stripTags ('<' :: rest) = some body) :
    looksTruncated (ofList body) = true := by
  rcases prefix_append_cases isPrefix with inTag | ⟨more, rfl, inRest⟩
  · rw [stripTags_of_not_mem fun member => oneTag (inTag.subset member)] at stripped
    cases stripped
  · rcases prefix_cons_iff.mp inRest with rfl | ⟨content, rfl, inContent⟩
    · rw [append_nil, stripTags_of_not_mem oneTag] at stripped
      cases stripped
    · obtain ⟨-, -, enclosed, rfl, contentEq⟩ := exists_of_stripTags oneTag stripped
      obtain ⟨blank, equal, -⟩ := exists_trimEnd content
      have shorter : trimEnd content <+: content := ⟨blank, equal.symm⟩
      have isPrefix := shorter.trans inContent
      rw [contentEq] at isPrefix
      obtain ⟨back, rfl, inInner⟩ :=
        exists_back_of_prefix (not_mem_of_blank afterBlank (by decide)) (by decide) isPrefix
      exact looksTruncated_unwrapped balanced afterBlank inInner

/-! ## Cuts -/

/-- Only a fence and a tag are wrappers. -/
theorem stripJsonWrapper_cases {args inner : String}
    (stripped : stripJsonWrapper args = some inner) :
    (∃ rest body, trim args.toList = '`' :: '`' :: '`' :: rest ∧ stripFence rest = some body ∧
        inner = ofList body) ∨
      ∃ rest body, trim args.toList = '<' :: rest ∧ stripTags ('<' :: rest) = some body ∧
        inner = ofList body := by
  simp only [stripJsonWrapper] at stripped
  cases fence : stripPrefix? "```".toList (trim args.toList) with
  | some rest =>
    left
    rw [fence] at stripped
    obtain ⟨body, isBody, rfl⟩ := Option.map_eq_some_iff.mp stripped
    exact ⟨rest, body, stripPrefix?_eq_some fence, isBody, rfl⟩
  | none =>
    right
    rw [fence] at stripped
    simp only [Bool.and_eq_true] at stripped
    split at stripped
    · next isTag =>
      obtain ⟨rest, isRest⟩ := isPrefixOf_iff_prefix.mp isTag.1
      obtain ⟨body, isBody, rfl⟩ := Option.map_eq_some_iff.mp stripped
      rw [← isRest] at isBody
      exact ⟨rest, body, isRest.symm, isBody, rfl⟩
    · cases stripped

theorem isEmpty_ofList (nonempty : text ≠ []) : (ofList text).isEmpty = false := by
  rw [Bool.eq_false_iff, ne_eq, String.isEmpty_iff]
  intro empty
  apply nonempty
  rw [← toList_ofList (l := text), empty]
  rfl

section Cutting

variable {host : Host} (sound : ParsesTextsOnly host)

include sound

variable {args : List Char}

theorem parseToolArguments_of_blank (nonempty : args ≠ []) (blank : Blank args) :
    parseToolArguments host (ofList args) = none := by
  apply parseToolArguments_of_startless sound (isEmpty_ofList nonempty)
  · rw [toList_ofList]
    exact startless_of_blank blank
  · intro inner stripped
    rcases stripJsonWrapper_cases stripped with ⟨rest, body, trimmed, -⟩ | ⟨rest, body, trimmed, -⟩
    all_goals
      rw [toList_ofList, trim_blank blank] at trimmed
      cases trimmed

/-- A cut of a wrapper, which begins with a mark that begins no value. -/
theorem parseToolArguments_of_mark {before rest : List Char} {mark : Char} (blank : Blank before)
    (notStarter : mark ∉ starters) (notSpace : mark ∉ spaceChars)
    (isCut : args <+: before ++ mark :: rest) (nonempty : args ≠ [])
    (unwrapped : ∀ more inner, more <+: rest →
      stripJsonWrapper (ofList (before ++ mark :: more)) = some inner →
        looksTruncated inner = true) : parseToolArguments host (ofList args) = none := by
  rcases prefix_append_cases isCut with inBefore | ⟨tail, rfl, inTail⟩
  · exact parseToolArguments_of_blank sound nonempty
      fun c member => blank c (inBefore.subset member)
  · rcases prefix_cons_iff.mp inTail with rfl | ⟨more, rfl, inRest⟩
    · rw [append_nil] at nonempty ⊢
      exact parseToolArguments_of_blank sound nonempty blank
    · apply parseToolArguments_of_startless sound (isEmpty_ofList nonempty)
      · rw [toList_ofList]
        exact startless_append_cons blank notSpace notStarter more
      · intro inner stripped
        exact unwrapped more inner inRest stripped

/-- An object that is cut off in the open is not parsed. -/
theorem parseToolArguments_of_bare {spaces inner args : List Char} (areSpaces : Spaces spaces)
    (balanced : Balanced inner) (isCut : args <+: spaces ++ '{' :: inner)
    (nonempty : args ≠ []) : parseToolArguments host (ofList args) = none := by
  have blank : Blank spaces := by
    have white : ∀ c ∈ spaceChars, isWhitespace c = true := by decide
    exact fun c member => white c (areSpaces c member)
  rcases prefix_append_cases isCut with inSpaces | ⟨tail, rfl, inTail⟩
  · exact parseToolArguments_of_blank sound nonempty
      fun c member => blank c (inSpaces.subset member)
  · rcases prefix_cons_iff.mp inTail with rfl | ⟨back, rfl, inInner⟩
    · rw [append_nil] at nonempty ⊢
      exact parseToolArguments_of_blank sound nonempty blank
    · have truncated := looksTruncated_of_open blank balanced inInner
      have trimmed := trim_append_cons blank (show isWhitespace '{' = false by decide) back
      apply parseToolArguments_eq_none sound (isEmpty_ofList nonempty)
      · exact fromStr_of_truncated sound truncated
      · intro body stripped
        rcases stripJsonWrapper_cases stripped with ⟨rest, _, isMark, -⟩ | ⟨rest, _, isMark, -⟩
        all_goals
          rw [toList_ofList, trimmed] at isMark
          cases isMark
      · rw [parseRepaired, truncated]
        rfl

/-- The text of an object, bare or wrapped, that is cut off before its closing brace
is not parsed, unless nothing is left of it. -/
theorem parseToolArguments_of_cut {front object : List Char} (opening : Opening front)
    (isObject : IsObject object) (isCut : args <+: front ++ object.dropLast) (nonempty : args ≠ [])
    : parseToolArguments host (ofList args) = none := by
  obtain ⟨inner, rfl, content⟩ := exists_inner_of_isObject isObject
  have balanced : Balanced inner := by
    rcases content with spaces | members
    · exact composes_balanced.of_spaces spaces
    · exact composes_balanced.of_derives members
  have end_ : ('{' :: (inner ++ ['}'])).dropLast = '{' :: inner := by
    rw [← cons_append, dropLast_concat]
  rw [end_] at isCut
  cases opening with
  | bare areSpaces => exact parseToolArguments_of_bare sound areSpaces balanced isCut nonempty
  | @fence before between info after beforeBlank betweenBlank isInfo afterBlank =>
    rw [append_assoc, cons_append] at isCut
    apply parseToolArguments_of_mark sound beforeBlank (by decide) (by decide) isCut nonempty
    intro more body isMore stripped
    have trimmed := trim_append_cons beforeBlank (show isWhitespace '`' = false by decide) more
    rcases stripJsonWrapper_cases stripped with
      ⟨rest, body, isFence, isBody, rfl⟩ | ⟨rest, body, isTag, -⟩
    · rw [toList_ofList, trimmed] at isFence
      obtain ⟨blank, equal, -⟩ := exists_trimEnd more
      have shorter : trimEnd more <+: more := ⟨blank, equal.symm⟩
      have isPrefix := shorter.trans isMore
      rw [(cons.inj isFence).2, cons_append, cons_append,
        cons_prefix_cons, cons_prefix_cons] at isPrefix
      exact looksTruncated_of_stripFence betweenBlank isInfo afterBlank balanced isPrefix.2.2 isBody
    · rw [toList_ofList, trimmed] at isTag
      cases isTag
  | @tag before tag after beforeBlank oneTag named isName afterBlank =>
    rw [append_assoc, cons_append, append_assoc] at isCut
    apply parseToolArguments_of_mark sound beforeBlank (by decide) (by decide) isCut nonempty
    intro more body isMore stripped
    have trimmed := trim_append_cons beforeBlank (show isWhitespace '<' = false by decide) more
    rcases stripJsonWrapper_cases stripped with
      ⟨rest, body, isFence, -⟩ | ⟨rest, body, isTag, isBody, rfl⟩
    · rw [toList_ofList, trimmed] at isFence
      cases isFence
    · rw [toList_ofList, trimmed] at isTag
      obtain ⟨blank, equal, -⟩ := exists_trimEnd more
      have shorter : trimEnd more <+: more := ⟨blank, equal.symm⟩
      have isPrefix := shorter.trans isMore
      rw [(cons.inj isTag).2] at isPrefix
      exact looksTruncated_of_stripTags oneTag afterBlank balanced isPrefix isBody

/-- A text that the parser accepts is parsed as it stands. -/
theorem parseToolArguments_of_text {text : String} {value : Value}
    (parses : host.fromStr text = some value) :
    parseToolArguments host text = some (unwrapDoubleEncodedObject host value) := by
  have notEmpty : text.isEmpty = false := by
    rw [Bool.eq_false_iff, ne_eq, String.isEmpty_iff]
    rintro rfl
    exact not_startless_of_isText (sound "" value parses) trivial
  simp [parseToolArguments, notEmpty, parses]

end Cutting

/-! ## What the wrapper stripping accepts -/

theorem exists_trimStart (text : List Char) :
    ∃ blank, text = blank ++ trimStart text ∧ Blank blank := by
  refine ⟨text.takeWhile isWhitespace, ?_, ?_⟩
  · exact takeWhile_append_dropWhile.symm
  · exact fun c member => mem_takeWhile_imp member

theorem exists_trim (text : List Char) :
    ∃ before after, text = before ++ (trim text ++ after) ∧ Blank before := by
  obtain ⟨before, front, blank⟩ := exists_trimStart text
  obtain ⟨after, back, -⟩ := exists_trimEnd (trimStart text)
  refine ⟨before, after, ?_, blank⟩
  rw [trim, ← back]
  exact front

theorem exists_info (body : List Char) : ∃ info ∈ [[], "json".toList, "JSON".toList],
      body = info ++ ((stripPrefix? "json".toList body).orElse fun _ =>
        stripPrefix? "JSON".toList body).getD body := by
  cases lower : stripPrefix? "json".toList body with
  | some rest => exact ⟨"json".toList, by decide, stripPrefix?_eq_some lower⟩
  | none =>
    cases upper : stripPrefix? "JSON".toList body with
    | some rest => exact ⟨"JSON".toList, by decide, stripPrefix?_eq_some upper⟩
    | none => exact ⟨[], by decide, rfl⟩

/-- What stands in a fence. -/
theorem exists_of_stripFence (stripped : stripFence rest = some body) :
    ∃ between info after back, rest = between ++ (info ++ (after ++ (body ++ back))) ∧
      Blank between ∧ info ∈ [[], "json".toList, "JSON".toList] ∧ Blank after := by
  obtain ⟨fenced, isFenced, rfl⟩ := Option.map_eq_some_iff.mp stripped
  obtain ⟨between, fencedEq, betweenBlank⟩ := exists_trimStart fenced
  obtain ⟨info, isInfo, infoEq⟩ := exists_info (trimStart fenced)
  simp only at stripped ⊢
  generalize ((stripPrefix? "json".toList (trimStart fenced)).orElse fun _ =>
    stripPrefix? "JSON".toList (trimStart fenced)).getD (trimStart fenced) = content at infoEq ⊢
  obtain ⟨after, back, contentEq, afterBlank⟩ := exists_trim content
  refine ⟨between, info, after, back ++ "```".toList, ?_, betweenBlank, isInfo, afterBlank⟩
  rw [stripSuffix?_eq_some isFenced, fencedEq, infoEq]
  conv_lhs => rw [contentEq]
  simp

/-- The text in a wrapper that is stripped stands behind an opening. -/
theorem exists_opening {text object : String} (stripped : stripJsonWrapper text = some object) :
    ∃ front back, Opening front ∧ text.toList = front ++ (object.toList ++ back) := by
  obtain ⟨before, last, textEq, beforeBlank⟩ := exists_trim text.toList
  rcases stripJsonWrapper_cases stripped with
    ⟨rest, body, trimmed, isBody, rfl⟩ | ⟨rest, body, trimmed, isBody, rfl⟩
  · obtain ⟨between, info, after, back, rfl, betweenBlank, isInfo, afterBlank⟩ :=
      exists_of_stripFence isBody
    refine ⟨before ++ '`' :: '`' :: '`' :: (between ++ (info ++ after)), back ++ last,
      .fence beforeBlank betweenBlank isInfo afterBlank, ?_⟩
    rw [textEq, trimmed, toList_ofList]
    simp
  · by_cases member : '>' ∈ rest
    · obtain ⟨tag, content, rfl, oneTag⟩ := eq_append_cons_of_mem member
      obtain ⟨named, isName, enclosed, rfl, contentEq⟩ := exists_of_stripTags oneTag isBody
      obtain ⟨blank, equal, -⟩ := exists_trimEnd content
      obtain ⟨after, back, enclosedEq, afterBlank⟩ := exists_trim enclosed
      refine ⟨before ++ '<' :: (tag ++ '>' :: after),
        back ++ ('<' :: '/' :: (tagName tag ++ ['>']) ++ (blank ++ last)),
        .tag beforeBlank oneTag named isName afterBlank, ?_⟩
      rw [textEq, trimmed, equal, contentEq, toList_ofList]
      conv_lhs => rw [enclosedEq]
      simp
    · rw [stripTags_of_not_mem member] at isBody
      cases isBody

/-- The text of an object behind an opening is not parsed when it is cut off, every
wrapper that is stripped begins with an opening, and a text that the parser accepts
is parsed as it stands. -/
theorem parseToolArguments_cut_or_whole {host : Host} (sound : ParsesTextsOnly host) :
    (∀ front object args : List Char, Opening front → IsObject object →
      args <+: front ++ object.dropLast → args ≠ [] →
        parseToolArguments host (ofList args) = none) ∧
    (∀ text object, stripJsonWrapper text = some object →
      ∃ front back, Opening front ∧ text.toList = front ++ (object.toList ++ back)) ∧
    ∀ text value, host.fromStr text = some value →
      parseToolArguments host text = some (unwrapDoubleEncodedObject host value) := by
  refine ⟨?_, ?_, ?_⟩
  · intro front object args opening isObject isCut nonempty
    exact parseToolArguments_of_cut sound opening isObject isCut nonempty
  · intro text object stripped
    exact exists_opening stripped
  · intro text value parses
    exact parseToolArguments_of_text sound parses

/-! ## The empty object -/

/-- A parser of one text. -/
def emptyObjectHost : Host where
  nfc := id
  fromStr := fun text => if text = "\x7b\x7d" then some (.object []) else none
  toJsonText := fun _ => ""
  notObject := fun _ => none

theorem isObject_braces : IsObject ['{', '}'] :=
  ⟨.emptyObject (forall_mem_nil _), rfl⟩

theorem parsesTextsOnly_emptyObjectHost : ParsesTextsOnly emptyObjectHost := by
  intro text value parses
  simp only [emptyObjectHost] at parses
  split at parses
  · next isText =>
    rw [isText]
    exact .element (forall_mem_nil _) isObject_braces.1 (forall_mem_nil _)
  · cases parses

/-- A member whose text has a brace. -/
theorem isObject_textMember :
    IsObject ['{', '"', 'a', '"', ':', '"', 'b', '}', 'c', '"', '}'] := by
  have name : StringBody ['a'] := .plain (by decide) .nil
  have text : StringBody ['b', '}', 'c'] :=
    .plain (by decide) (.plain (by decide) (.plain (by decide) .nil))
  have none : Spaces [] := forall_mem_nil _
  exact ⟨.object (.lastMember (.member none name none (.element none (.string text) none))), rfl⟩

/-- A fenced object is cut off in a text behind a brace, and the whole object is parsed. -/
theorem parseToolArguments_fence :
    parseToolArguments emptyObjectHost (ofList ("```json\n".toList ++
        ['{', '"', 'a', '"', ':', '"', 'b', '}'])) = none ∧
      parseToolArguments emptyObjectHost "\x7b\x7d" =
        some (unwrapDoubleEncodedObject emptyObjectHost (.object [])) := by
  obtain ⟨cut, -, whole⟩ := parseToolArguments_cut_or_whole parsesTextsOnly_emptyObjectHost
  constructor
  · have opening : Opening ([] ++ '`' :: '`' :: '`' :: ([] ++ ("json".toList ++ ['\n']))) :=
      .fence (forall_mem_nil _) (forall_mem_nil _) (by decide) (by simp [Blank]; decide)
    apply cut _ _ _ opening isObject_textMember
    · exact ⟨['c', '"'], by decide⟩
    · exact cons_ne_nil _ _
  · exact whole _ _ rfl

/-- Arguments of which nothing is left are those of a tool without any. -/
theorem not_parseToolArguments_none :
    ¬∀ front object args : List Char, Opening front → IsObject object →
      args <+: front ++ object.dropLast →
        parseToolArguments emptyObjectHost (ofList args) = none := by
  intro never
  have none := never [] ['{', '}'] [] (.bare (forall_mem_nil _)) isObject_braces nil_prefix
  have some : parseToolArguments emptyObjectHost (ofList []) = some (.object []) := by
    simp [parseToolArguments]
  cases none

end Obelus.Formats
