import Obelus.Data.Occurrence
import Obelus.Formats.QuotedObjects

/-!
# Structured summaries

The document that the model writes when a conversation is compacted, and how it is
found in the response: behind a closing tag or a fence, or at the front of the text.
-/

namespace Obelus.Agent.Structured

open Data (matchTails)
open Formats (Host Value JsonObject safelyParseJson)
open Meetings.Validation (isWhitespace)

structure FileActivity where
  path : String
  summary : String
  keyCode : Option String

structure StructuredSummary where
  userIntent : List String
  technicalConcepts : List String
  files : List FileActivity
  errorsAndFixes : List String
  problemSolving : List String
  userMessages : List String
  pendingTasks : List String
  currentWork : Option String
  nextStep : Option String
  extra : JsonObject

mutual

def stringifyLenient (host : Host) : Value → String
  | .string text => text
  | .null => ""
  | .object fields => "; ".intercalate (stringifyFields host fields)
  | .array items => "; ".intercalate (stringifyItems host items)
  | .bool value => host.toJsonText (.bool value)
  | .number value => host.toJsonText (.number value)

def stringifyItems (host : Host) : List Value → List String
  | [] => []
  | item :: rest => stringifyLenient host item :: stringifyItems host rest

def stringifyFields (host : Host) : List (String × Value) → List String
  | [] => []
  | (key, value) :: rest =>
    (key ++ ": " ++ stringifyLenient host value) :: stringifyFields host rest

end

def lenientStringList (host : Host) : Value → List String
  | .array items => items.map (stringifyLenient host)
  | .null => []
  | other => [stringifyLenient host other]

def lenientStringOpt (host : Host) : Value → Option String
  | .null => none
  | other => some (stringifyLenient host other)

/-- A file that is written as an object; its other fields are left out. -/
def FileActivity.fromFields (host : Host) (fields : JsonObject) : FileActivity where
  path := ((fields.lookup "path").map (stringifyLenient host)).getD ""
  summary := ((fields.lookup "summary").map (stringifyLenient host)).getD ""
  keyCode := (fields.lookup "key_code").bind (lenientStringOpt host)

def blank (text : String) : Bool :=
  text.toList.all isWhitespace

/-- An entry of `files`; one that is not an object names a path. -/
def lenientFile (host : Host) : Value → Option FileActivity
  | .object fields => some (FileActivity.fromFields host fields)
  | other =>
    let path := stringifyLenient host other
    if blank path then none else some { path, summary := "", keyCode := none }

def lenientFileList (host : Host) : Value → List FileActivity
  | .array items => items.filterMap (lenientFile host)
  | .null => []
  | other => [other].filterMap (lenientFile host)

def fieldNames : List String :=
  ["user_intent", "technical_concepts", "files", "errors_and_fixes", "problem_solving",
    "user_messages", "pending_tasks", "current_work", "next_step"]

def listField (host : Host) (fields : JsonObject) (name : String) : List String :=
  ((fields.lookup name).map (lenientStringList host)).getD []

def optField (host : Host) (fields : JsonObject) (name : String) : Option String :=
  (fields.lookup name).bind (lenientStringOpt host)

/-- `serde_json::from_value`. -/
def StructuredSummary.fromValue (host : Host) : Value → Option StructuredSummary
  | .object fields => some {
      userIntent := listField host fields "user_intent"
      technicalConcepts := listField host fields "technical_concepts"
      files := ((fields.lookup "files").map (lenientFileList host)).getD []
      errorsAndFixes := listField host fields "errors_and_fixes"
      problemSolving := listField host fields "problem_solving"
      userMessages := listField host fields "user_messages"
      pendingTasks := listField host fields "pending_tasks"
      currentWork := optField host fields "current_work"
      nextStep := optField host fields "next_step"
      extra := fields.filter fun field => field.1 ∉ fieldNames }
  | _ => none

def FileActivity.normalize (file : FileActivity) : FileActivity :=
  { file with keyCode := file.keyCode.filter fun text => !blank text }

def StructuredSummary.normalize (summary : StructuredSummary) : StructuredSummary :=
  let retain (list : List String) := list.filter fun text => !blank text
  { summary with
    userIntent := retain summary.userIntent
    technicalConcepts := retain summary.technicalConcepts
    errorsAndFixes := retain summary.errorsAndFixes
    problemSolving := retain summary.problemSolving
    userMessages := retain summary.userMessages
    pendingTasks := retain summary.pendingTasks
    files := (summary.files.map FileActivity.normalize).filter fun file =>
      !blank file.path || !blank file.summary || file.keyCode.isSome
    currentWork := summary.currentWork.filter fun text => !blank text
    nextStep := summary.nextStep.filter fun text => !blank text }

def StructuredSummary.isEmpty (summary : StructuredSummary) : Bool :=
  summary.userIntent.isEmpty && summary.technicalConcepts.isEmpty && summary.files.isEmpty &&
    summary.errorsAndFixes.isEmpty && summary.problemSolving.isEmpty &&
    summary.userMessages.isEmpty && summary.pendingTasks.isEmpty &&
    summary.currentWork.isNone && summary.nextStep.isNone

/-- Where the search for the brace that closes an object is. -/
structure BraceScan where
  depth : Nat := 0
  inString : Bool := false
  escaped : Bool := false

def BraceScan.next (scan : BraceScan) (ch : Char) : BraceScan :=
  if scan.inString then
    if scan.escaped then { scan with escaped := false }
    else if ch = '\\' then { scan with escaped := true }
    else if ch = '"' then { scan with inString := false }
    else scan
  else if ch = '"' then { scan with inString := true }
  else if ch = '{' then { scan with depth := scan.depth + 1 }
  else if ch = '}' then { scan with depth := scan.depth - 1 }
  else scan

/-- The text up to the brace at which the depth is zero. -/
def upToClose (scan : BraceScan) : List Char → Option (List Char)
  | [] => none
  | ch :: rest =>
    if !scan.inString && ch == '}' && (scan.next ch).depth == 0 then some [ch]
    else (upToClose (scan.next ch) rest).map (ch :: ·)

def leadingObject (text : List Char) : Option (List Char) :=
  let text := Formats.trimStart text
  if text.head? = some '{' then upToClose {} text else none

def terminator : List Char :=
  "</analysis>".toList

def jsonFence : List Char :=
  "```json".toList

def fencedJsonBlocks (text : List Char) : List (List Char) :=
  (matchTails jsonFence text).reverse.filterMap leadingObject

/-- The objects at the markers of a text behind a terminator. -/
def objectsAtMarkers (tail : List Char) : List (List Char) :=
  fencedJsonBlocks tail ++ (leadingObject tail).toList

/-- An object behind a terminator that holds all the later ones. -/
def candidatesBehind (tail : List Char) : List (List Char) :=
  (objectsAtMarkers tail).filter fun candidate =>
    (matchTails terminator candidate).length == (matchTails terminator tail).length

/-- `Vec::dedup`. -/
def dedup : List (List Char) → List (List Char)
  | [] => []
  | [first] => [first]
  | first :: second :: rest =>
    if first = second then dedup (second :: rest) else first :: dedup (second :: rest)

def jsonCandidates (text : List Char) : List (List Char) :=
  let found := matchTails terminator text
  let cuts := if found.isEmpty then [text] else found
  dedup (cuts.reverse.flatMap candidatesBehind ++ (leadingObject text).toList)

/-- The summary that a candidate denotes. -/
def summaryOf (host : Host) (candidate : List Char) : Option StructuredSummary :=
  (safelyParseJson host (String.ofList candidate)).bind fun value =>
    (StructuredSummary.fromValue host value).bind fun summary =>
      if summary.normalize.isEmpty then none else some summary.normalize

def StructuredSummary.parse (host : Host) (responseText : List Char) : Option StructuredSummary :=
  (jsonCandidates responseText).findSome? (summaryOf host)

/-!
## Candidates that are quoted

The objects that begin at a closing tag or a fence which a summary quotes in its strings.
One that ends in the summary has no field of a summary.
-/

open Obelus.Data.ListDecide List
open Obelus.Data (matchTails)
open Obelus.Data.JsonText
open Formats (Host Value JsonObject safelyParseJson Blank Tokens StringState structuralChars
  ParsesTextsOnly KeysAreStrings)

/-- The text is passed at any depth inside an object. -/
def Passed (text : List Char) : Prop :=
  ∀ depth more, upToClose { depth := depth + 1 } (text ++ more) =
    (upToClose { depth := depth + 1 } more).map (text ++ ·)

theorem Passed.append {left right : List Char} (leftPassed : Passed left)
    (rightPassed : Passed right) : Passed (left ++ right) := by
  intro depth more
  rw [append_assoc, leftPassed, rightPassed, Option.map_map]
  congr 1
  funext found
  exact (append_assoc left right found).symm

/-- Characters that leave the scan as it is. -/
theorem passed_of_next {c : Char} (stays : ∀ depth, BraceScan.next { depth } c = { depth }) :
    Passed [c] := by
  intro depth more
  rw [singleton_append, upToClose, stays]
  simp

theorem upToClose_body {body : List Char} (loose : LooseBody body) (depth : Nat)
    (more : List Char) : upToClose { depth, inString := true } (body ++ '"' :: more) =
      (upToClose { depth } more).map (body ++ '"' :: ·) := by
  induction loose with
  | nil => rfl
  | @plain c rest plain _ ih =>
    have stays : BraceScan.next { depth, inString := true } c = { depth, inString := true } := by
      simp [BraceScan.next, plain.2.1, plain.2.2]
    rw [cons_append, upToClose, stays, ih, Option.map_map]
    rfl
  | @escape c rest _ _ ih =>
    have slash : BraceScan.next { depth, inString := true } '\\' =
        { depth, inString := true, escaped := true } := rfl
    have letter : BraceScan.next { depth, inString := true, escaped := true } c =
        { depth, inString := true } := rfl
    rw [cons_append, cons_append, upToClose, slash, upToClose, letter, ih]
    simp [Function.comp_def]

theorem composes_passed : Composes Passed where
  nil := by
    intro depth more
    simp
  append := Passed.append
  bare c isBare := by
    have other : ∀ c ∈ bareChars, c ≠ '"' ∧ c ≠ '{' ∧ c ≠ '}' := by decide
    exact passed_of_next fun depth => by simp [BraceScan.next, *]
  string isBody := by
    intro depth more
    rw [quoted, cons_append, upToClose]
    have inside := upToClose_body isBody.loose (depth + 1) more
    simp only [BraceScan.next, Bool.false_eq_true, if_false, if_true, append_assoc,
      singleton_append, inside]
    simp [Function.comp_def]
  array passed := by
    have opener : Passed ['['] := passed_of_next fun depth => rfl
    have closer : Passed [']'] := passed_of_next fun depth => rfl
    exact opener.append (passed.append closer)
  object := by
    intro inner passed depth more
    have inside := passed (depth + 1) ('}' :: more)
    rw [upToClose] at inside
    rw [cons_append, upToClose]
    simp [BraceScan.next] at inside ⊢
    rw [inside]
    simp [Function.comp_def]

theorem upToClose_object {inner : List Char} (passed : Passed inner) (more : List Char) :
    upToClose {} ('{' :: (inner ++ '}' :: more)) = some ('{' :: (inner ++ ['}'])) := by
  have inside := passed 0 ('}' :: more)
  rw [upToClose]
  simp [BraceScan.next] at inside ⊢
  exact inside

variable {blank object text back : List Char} {scan : BraceScan} {place : StringState}
  {name : String} {fields : JsonObject}

theorem trimStart_append (isBlank : Blank blank) (text : List Char) :
    Formats.trimStart (blank ++ text) = Formats.trimStart text := by
  induction blank with
  | nil => rfl
  | cons c rest ih =>
    obtain ⟨white, restBlank⟩ := forall_mem_cons.mp isBlank
    rw [cons_append, Formats.trimStart, dropWhile_cons_of_pos white]
    exact ih restBlank

/-- The object behind white space is found as a whole. -/
theorem leadingObject_of_isObject (isBlank : Blank blank) (isObject : IsObject object)
    (more : List Char) : leadingObject (blank ++ (object ++ more)) = some object := by
  obtain ⟨inner, rfl, content⟩ := exists_inner_of_isObject isObject
  have passed : Passed inner := by
    rcases content with spaces | members
    · exact composes_passed.of_spaces spaces
    · exact composes_passed.of_derives members
  rw [leadingObject, trimStart_append isBlank, cons_append]
  simp only [append_assoc]
  exact upToClose_object passed more

/-- The scan is where the reading of the strings is. -/
def BraceScan.At (scan : BraceScan) (place : StringState) : Prop :=
  (scan.inString = true ↔ place ≠ .outside) ∧ (scan.escaped = true ↔ place = .escaped)

theorem BraceScan.At.next (isAt : scan.At place) (c : Char) : (scan.next c).At (place.next c) := by
  rcases scan with ⟨depth, inString, escaped⟩
  obtain ⟨isInString, isEscaped⟩ := isAt
  cases place with
  | outside =>
    simp only [BraceScan.next, StringState.next]
    split_ifs <;> simp_all [BraceScan.At]
  | inside =>
    simp only [BraceScan.next, StringState.next]
    split_ifs <;> simp_all [BraceScan.At]
  | escaped =>
    simp only [ne_eq, reduceCtorEq, not_false_iff, iff_true] at isInString isEscaped
    subst isInString isEscaped
    simp [BraceScan.next, BraceScan.At, StringState.next]

/-- An object that is found stands at the front and ends outside its strings. -/
theorem upToClose_spec (isAt : scan.At place) (found : upToClose scan text = some object) :
    object <+: text ∧ object.foldl StringState.next place = .outside := by
  induction text generalizing scan place object with
  | nil => cases found
  | cons c rest ih =>
    rw [upToClose] at found
    split at found
    · next closes =>
      cases found
      simp only [Bool.and_eq_true, beq_iff_eq] at closes
      have outside : place = .outside := by
        by_contra inString
        rw [isAt.1.mpr inString] at closes
        cases closes.1.1
      refine ⟨⟨rest, rfl⟩, ?_⟩
      rw [outside, closes.1.2]
      rfl
    · obtain ⟨tail, foundTail, rfl⟩ := Option.map_eq_some_iff.mp found
      obtain ⟨isPrefix, outside⟩ := ih (isAt.next c) foundTail
      exact ⟨cons_prefix_cons.mpr ⟨rfl, isPrefix⟩, outside⟩

theorem leadingObject_spec (found : leadingObject text = some object) :
    object <+: Formats.trimStart text ∧ object.foldl StringState.next .outside = .outside := by
  have isAt : BraceScan.At {} .outside := by simp [BraceScan.At]
  simp only [leadingObject] at found
  split at found
  · exact upToClose_spec isAt found
  · cases found

/-- The text behind a marker in an object. -/
def BehindMarker (object back : List Char) : Prop :=
  ∃ marker ∈ [terminator, jsonFence], ∃ front, object = front ++ (marker ++ back)

/-- A marker stands in a string. -/
theorem tokens_behind (tokens : Tokens object) (behind : BehindMarker object back) :
    back.foldlM StringState.tokenNext .inside = some .outside := by
  obtain ⟨marker, isMarker, front, rfl⟩ := behind
  rw [Tokens, foldlM_append] at tokens
  obtain ⟨state, -, markerTokens⟩ := Option.bind_eq_some_iff.mp tokens
  rw [foldlM_append] at markerTokens
  obtain ⟨middle, passed, backTokens⟩ := Option.bind_eq_some_iff.mp markerTokens
  have notOutside : ∀ marker ∈ [terminator, jsonFence],
      marker.foldlM StringState.tokenNext .outside = none := by decide
  have staysInside : ∀ marker ∈ [terminator, jsonFence], ∀ state ∈ [StringState.inside, .escaped],
      marker.foldlM StringState.tokenNext state = some .inside := by decide
  have isInside : middle = .inside := by
    cases state with
    | outside =>
      rw [notOutside marker isMarker] at passed
      cases passed
    | inside =>
      rw [staysInside marker isMarker _ (by decide)] at passed
      exact (Option.some.inj passed).symm
    | escaped =>
      rw [staysInside marker isMarker _ (by decide)] at passed
      exact (Option.some.inj passed).symm
  rwa [isInside] at backTokens

/-- White space does not end a string. -/
theorem tokens_skip (isBlank : Blank blank) {last : StringState}
    (tokens : (blank ++ text).foldlM StringState.tokenNext .inside = some last) :
    text.foldlM StringState.tokenNext .inside = some last := by
  induction blank with
  | nil => exact tokens
  | cons c rest ih =>
    obtain ⟨white, restBlank⟩ := forall_mem_cons.mp isBlank
    have notSlash : c ≠ '\\' := by
      rintro rfl
      cases white
    have notQuote : c ≠ '"' := by
      rintro rfl
      cases white
    obtain ⟨middle, step, restTokens⟩ := Option.bind_eq_some_iff.mp tokens
    have isNext : middle = StringState.inside.next c := Formats.eq_next_of_strictNext step
    rw [isNext, StringState.next, if_neg notSlash, if_neg notQuote] at restTokens
    exact ih restBlank restTokens

theorem tokens_trimStart (tokens : Tokens object) (behind : BehindMarker object back) :
    (Formats.trimStart back).foldlM StringState.tokenNext .inside = some .outside := by
  obtain ⟨blank, isBack, isBlank⟩ := Formats.exists_trimStart back
  apply tokens_skip isBlank
  rw [← isBack]
  exact tokens_behind tokens behind

theorem field_not_structural (isField : name ∈ fieldNames) :
    ¬∀ c ∈ name.toList, c ∈ structuralChars := by
  have other : ∀ name ∈ fieldNames, ¬∀ c ∈ name.toList, c ∈ structuralChars := by decide
  exact other name isField

theorem lookup_eq_none (other : ∀ field ∈ fields, field.1 ≠ name) : fields.lookup name = none := by
  rw [lookup_eq_none_iff]
  intro field member
  simp [Ne.symm (other field member)]

/-- An object without a field of a summary denotes none. -/
theorem isEmpty_of_other {host : Host} {summary : StructuredSummary}
    (other : ∀ field ∈ fields, field.1 ∉ fieldNames)
    (isSummary : StructuredSummary.fromValue host (.object fields) = some summary) :
    summary.normalize.isEmpty = true := by
  have missing : ∀ name ∈ fieldNames, fields.lookup name = none := by
    intro name isField
    apply lookup_eq_none
    rintro field member rfl
    exact other field member isField
  simp only [fieldNames] at missing
  cases isSummary
  simp [StructuredSummary.normalize, StructuredSummary.isEmpty, listField, optField, missing]

section Quoting

variable {host : Host} (sound : ParsesTextsOnly host) (keys : KeysAreStrings host)

include sound keys

/-- An object that begins behind a marker of a document and ends in the document denotes no
summary. -/
theorem summaryOf_quoted {object back candidate more : List Char} (tokens : Tokens object)
    (behind : BehindMarker object back) (found : leadingObject (back ++ more) = some candidate)
    (within : candidate <+: Formats.trimStart back) : summaryOf host candidate = none := by
  obtain ⟨-, outside⟩ := leadingObject_spec found
  obtain ⟨rest, isBack⟩ := within
  have backTokens := tokens_trimStart tokens behind
  rw [← isBack, foldlM_append] at backTokens
  obtain ⟨last, candidateTokens, -⟩ := Option.bind_eq_some_iff.mp backTokens
  rw [summaryOf, Option.bind_eq_none_iff]
  intro value parses
  rw [Option.bind_eq_none_iff]
  intro summary isSummary
  rw [if_pos]
  cases value with
  | object fields =>
    have structural := Formats.keys_of_safelyParseJson sound keys candidateTokens outside parses
    apply isEmpty_of_other _ isSummary
    intro field member isField
    exact field_not_structural isField (structural field member)
  | _ => cases isSummary

end Quoting

end Obelus.Agent.Structured
