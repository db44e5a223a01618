import Mathlib.Data.List.DropRight
import Obelus.Meetings.Validation

/-!
# Decoded values

The values of `serde_json` and the blocks that the decoders of the providers make.  A
floating point number is a rational number.
-/

namespace Obelus.Formats

inductive Number
  | posInt (value : Nat)
  | negInt (value : Int)
  | float (value : ℚ)

inductive Value
  | null
  | bool (value : Bool)
  | number (value : Number)
  | string (value : String)
  | array (elements : List Value)
  | object (fields : List (String × Value))

abbrev JsonObject := List (String × Value)

namespace Value

def get (key : String) : Value → Option Value
  | .object fields => fields.lookup key
  | _ => none

def asStr : Value → Option String
  | .string text => some text
  | _ => none

def asU64 : Value → Option Nat
  | .number (.posInt value) => some value
  | _ => none

def asF64 : Value → Option ℚ
  | .number (.posInt value) => some value
  | .number (.negInt value) => some value
  | .number (.float value) => some value
  | _ => none

def asArray : Value → Option (List Value)
  | .array elements => some elements
  | _ => none

def asObject : Value → Option JsonObject
  | .object fields => some fields
  | _ => none

def isNull : Value → Bool
  | .null => true
  | _ => false

/-- `get` followed by `as_str`. -/
def str (key : String) (value : Value) : Option String :=
  (value.get key).bind asStr

end Value

/-- `nfc` and `fromStr` are the normal form and the parser of other libraries, and
`toJsonText` writes a value.  `notObject` is what `object` makes of a value that is not an
object, or nothing where it panics. -/
structure Host where
  nfc : String → String
  fromStr : String → Option Value
  toJsonText : Value → String
  notObject : Value → Option JsonObject

/-- The characters of the Unicode tag block are dropped from the normal form. -/
def sanitizeUnicodeTags (host : Host) (text : String) : String :=
  String.ofList ((host.nfc text).toList.filter fun c => ¬(0xE0000 ≤ c.val ∧ c.val ≤ 0xE007F))

def trimStart (text : List Char) : List Char :=
  text.dropWhile Meetings.Validation.isWhitespace

def trimEnd (text : List Char) : List Char :=
  text.rdropWhile Meetings.Validation.isWhitespace

def trim (text : List Char) : List Char :=
  trimEnd (trimStart text)

structure ErrorData where
  code : Int
  message : String

def invalidParams (message : String) : ErrorData :=
  ⟨-32602, message⟩

structure CallToolRequestParams where
  name : String
  arguments : Option JsonObject

inductive MessageContentBlock
  | text (text : String)
  | toolRequest (id : String) (toolCall : Except ErrorData CallToolRequestParams)
  | thinking (thinking signature : String)
  | redactedThinking (data : String)

structure Message where
  id : Option String := none
  content : List MessageContentBlock := []
  outputTokenLimitReached : Bool := false

inductive DecodeError
  | invalid (message : String)
  | panicked

/-- `object`, with the panic of the assertion in it. -/
def object (host : Host) : Value → Except DecodeError JsonObject
  | .object fields => .ok fields
  | other =>
    match host.notObject other with
    | some fields => .ok fields
    | none => .error .panicked

/-!
## Tool arguments

How the text of the arguments of a tool call is parsed and repaired.
-/

structure RepairState where
  repaired : List Char := []
  inString : Bool := false
  escapeNext : Bool := false
  closers : List Char := []

/-- The body of the loop of `repair_truncated_json`.  The last closer is the first. -/
def RepairState.push (state : RepairState) (c : Char) : RepairState :=
  let state := { state with repaired := state.repaired ++ [c] }
  if state.inString then
    if state.escapeNext then { state with escapeNext := false }
    else if c = '\\' then { state with escapeNext := true }
    else if c = '"' then { state with inString := false }
    else state
  else if c = '"' then { state with inString := true }
  else if c = '{' then { state with closers := '}' :: state.closers }
  else if c = '[' then { state with closers := ']' :: state.closers }
  else if (c = '}' ∨ c = ']') ∧ state.closers.head? = some c then
    { state with closers := state.closers.tail }
  else state

def repairTruncatedJson (text : String) : String :=
  let state := text.toList.foldl RepairState.push {}
  let closed :=
    if state.inString then
      state.repaired ++ (if state.escapeNext then ['\\', '"'] else ['"'])
    else state.repaired
  String.ofList (closed ++ state.closers)

def hexDigit (n : Nat) : Char :=
  if n < 10 then Char.ofNat (48 + n) else Char.ofNat (87 + n)

/-- An escape of a control character. -/
def escapeControl (c : Char) : List Char :=
  if c.val = 8 then ['\\', 'b']
  else if c.val = 12 then ['\\', 'f']
  else if c = '\n' then ['\\', 'n']
  else if c = '\r' then ['\\', 'r']
  else if c = '\t' then ['\\', 't']
  else ['\\', 'u', '0', '0', hexDigit (c.toNat / 16), hexDigit (c.toNat % 16)]

def jsonEscapeControlCharsInString (text : String) : String :=
  String.ofList (text.toList.flatMap fun c => if c.val ≤ 0x1F then escapeControl c else [c])

def safelyParseJson (host : Host) (text : String) : Option Value :=
  match host.fromStr text with
  | some value => some value
  | none =>
    match host.fromStr (repairTruncatedJson text) with
    | some value => some value
    | none =>
      match host.fromStr (jsonEscapeControlCharsInString text) with
      | some value => some value
      | none =>
        host.fromStr (repairTruncatedJson (jsonEscapeControlCharsInString text))

structure ScanState where
  inString : Bool := false
  escapeNext : Bool := false
  depth : List Char := []

/-- The body of the loop of `looks_truncated`; nothing when a closer does not match. -/
def ScanState.scan (state : ScanState) (c : Char) : Option ScanState :=
  if state.inString then
    if state.escapeNext then some { state with escapeNext := false }
    else if c = '\\' then some { state with escapeNext := true }
    else if c = '"' then some { state with inString := false }
    else some state
  else if c = '"' then some { state with inString := true }
  else if c = '{' then some { state with depth := '}' :: state.depth }
  else if c = '[' then some { state with depth := ']' :: state.depth }
  else if c = '}' ∨ c = ']' then
    if state.depth.head? = some c then some { state with depth := state.depth.tail } else none
  else some state

def looksTruncated (args : String) : Bool :=
  let trimmed := trimEnd args.toList
  if trimmed.isEmpty then false
  else
    match trimmed.foldlM ScanState.scan {} with
    | none => true
    | some state => state.inString || state.escapeNext || !state.depth.isEmpty

/-- The last characters of a text. -/
def tailOf (count : Nat) (text : List Char) : List Char :=
  text.drop (text.length - count)

def truncationErrorMessage (host : Host) (args : String) : Option String :=
  if args.isEmpty then none
  else if (host.fromStr args).isSome then none
  else
    let trimmed := trimEnd args.toList
    let snippet :=
      if trimmed.length > 80 then "…" ++ String.ofList (tailOf 80 trimmed)
      else String.ofList trimmed
    let guidance :=
      if looksTruncated (String.ofList trimmed) then
        "The model's response was truncated — it hit the output token limit while generating " ++
          "this tool call. Try increasing max_tokens for this provider or breaking the task " ++
          "into smaller steps."
      else
        "The model produced malformed tool arguments. Try resending your message or breaking " ++
          "the task into smaller steps."
    some (guidance ++ "\nReceived " ++ toString trimmed.length ++ " characters; cut off at: " ++
      snippet)

def stripPrefix? (front text : List Char) : Option (List Char) :=
  if front.isPrefixOf text then some (text.drop front.length) else none

def stripSuffix? (last text : List Char) : Option (List Char) :=
  if last.isSuffixOf text then some (text.take (text.length - last.length)) else none

/-- The body of a fenced text. -/
def stripFence (rest : List Char) : Option (List Char) :=
  (stripSuffix? "```".toList rest).map fun body =>
    let body := trimStart body
    trim (((stripPrefix? "json".toList body).orElse fun _ =>
      stripPrefix? "JSON".toList body).getD body)

/-- The body of a text between two tags. -/
def stripTags (trimmed : List Char) : Option (List Char) :=
  let opening := trimmed.takeWhile (· ≠ '>')
  if opening.length = trimmed.length then none
  else
    let tagName := (trimStart (opening.drop 1)).takeWhile
      fun c => !Meetings.Validation.isWhitespace c
    if tagName.isEmpty then none
    else if !tagName.all fun c => c.isAlphanum || c == '_' || c == '-' then none
    else
      (stripSuffix? ("</".toList ++ tagName ++ ['>'])
        (trimEnd (trimmed.drop (opening.length + 1)))).map trim

def stripJsonWrapper (args : String) : Option String :=
  let trimmed := trim args.toList
  match stripPrefix? "```".toList trimmed with
  | some rest => (stripFence rest).map String.ofList
  | none =>
    if ['<'].isPrefixOf trimmed && !(['<', '/'].isPrefixOf trimmed) then
      (stripTags trimmed).map String.ofList
    else none

/-- The loop of `unwrap_double_encoded_object`. -/
def unwrapText (host : Host) : Nat → String → Option Value
  | 0, _ => none
  | rounds + 1, current =>
    match host.fromStr current with
    | some (.object fields) => some (.object fields)
    | some (.string inner) => unwrapText host rounds (String.ofList (trim inner.toList))
    | _ => none

def unwrapDoubleEncodedObject (host : Host) : Value → Value
  | .string text => (unwrapText host 3 (String.ofList (trim text.toList))).getD (.string text)
  | value => value

/-- A text that is parsed as it is, or repaired when it does not look truncated. -/
def parseRepaired (host : Host) (text : String) : Option Value :=
  if looksTruncated text then none
  else (safelyParseJson host text).map (unwrapDoubleEncodedObject host)

def parseToolArguments (host : Host) (args : String) : Option Value :=
  if args.isEmpty then some (.object [])
  else
    match host.fromStr args with
    | some value => some (unwrapDoubleEncodedObject host value)
    | none =>
      let unwrapped := (stripJsonWrapper args).bind fun inner =>
        match host.fromStr inner with
        | some value => some (unwrapDoubleEncodedObject host value)
        | none => parseRepaired host inner
      unwrapped.orElse fun _ => parseRepaired host args

/-- The text of an object is parsed as the object. -/
theorem parseToolArguments_of_object {host : Host} {args : String} {fields : JsonObject}
    (parses : host.fromStr args = some (.object fields)) (notEmpty : args.isEmpty = false) :
    parseToolArguments host args = some (.object fields) := by
  simp [parseToolArguments, notEmpty, parses, unwrapDoubleEncodedObject]

end Obelus.Formats
