import Obelus.Data.Occurrence
import Obelus.Formats.ToolArguments

/-!
# Emulated tool calls

Models without tool calls write shell commands as lines that begin with a dollar sign and
code in a fence.  The parser finds them in the chunks of the text.
-/

namespace Obelus.LocalInference

open Obelus.Data (splitOnce)
open Obelus.Formats (trim)

inductive EmulatorAction
  | text (text : String)
  | shellCommand (command : String)
  | executeCode (code : String)

inductive ParserState
  | normal
  | inCommand
  | inExecuteBlock
  deriving DecidableEq

structure StreamingEmulatorParser where
  buffer : List Char := []
  state : ParserState := .normal
  codeModeEnabled : Bool

/-- The fence without the end of its line. -/
def bareFence : List Char :=
  "```execute_typescript".toList

def fence : List Char :=
  "```execute_typescript\n".toList

def closingFence : List Char :=
  "\n```".toList

def holdBackCodeMode : Nat :=
  23

def holdBackShellOnly : Nat :=
  2

/-- `len` of a text in UTF-8. -/
def utf8Length (text : List Char) : Nat :=
  (text.map Char.utf8Size).sum

def isBlank (text : List Char) : Bool :=
  (trim text).isEmpty

/-- `trim_end_matches`, with the length of the text as its fuel. -/
def trimEndMatches (pattern : List Char) : Nat → List Char → List Char
  | 0, text => text
  | fuel + 1, text =>
    if pattern <:+ text then
      trimEndMatches pattern fuel (text.take (text.length - pattern.length))
    else text

/-- A text that is not blank is yielded. -/
def textUnlessBlank (text : List Char) : List EmulatorAction :=
  if isBlank text then [] else [.text (String.ofList text)]

/-- The command of a line that begins with a dollar sign. -/
def commandOf (line : List Char) : List EmulatorAction :=
  match line with
  | '$' :: command =>
    if isBlank command then [] else [.shellCommand (String.ofList (trim command))]
  | _ => []

/-- `strip_prefix('\n')`, or the text as it is. -/
def stripLineFeed : List Char → List Char
  | '\n' :: rest => rest
  | text => text

/-- One round of the loop: it goes on or breaks. -/
inductive Iteration
  | continues (results : List EmulatorAction) (parser : StreamingEmulatorParser)
  | breaks (results : List EmulatorAction) (parser : StreamingEmulatorParser)

namespace StreamingEmulatorParser

variable (parser : StreamingEmulatorParser)

def iterateInCommand : Iteration :=
  match splitOnce ['\n'] parser.buffer with
  | some (commandLine, rest) =>
    .continues (commandOf commandLine) { parser with buffer := rest, state := .normal }
  | none => .breaks [] parser

def iterateInExecuteBlock : Iteration :=
  match splitOnce closingFence parser.buffer with
  | some (code, after) =>
    .continues (if isBlank code then [] else [.executeCode (String.ofList code)])
      { parser with buffer := stripLineFeed after, state := .normal }
  | none => .breaks [] parser

/-- The end of a buffer that may be the begin of a marker is held back. -/
def holdBack : Iteration :=
  let count := if parser.codeModeEnabled then holdBackCodeMode else holdBackShellOnly
  if count < parser.buffer.length && parser.buffer.getLast? ≠ some '\n' then
    let emitCount := parser.buffer.length - count
    .breaks [.text (String.ofList (parser.buffer.take emitCount))]
      { parser with buffer := parser.buffer.drop emitCount }
  else .breaks [] parser

/-- Shell commands, without a fence in the buffer. -/
def iterateShell (chunkLength : Nat) : Iteration :=
  match splitOnce ['\n', '$'] parser.buffer with
  | some (beforeDollar, fromDollar) =>
    .continues (textUnlessBlank (beforeDollar ++ ['\n']))
      { parser with buffer := '$' :: fromDollar, state := .inCommand }
  | none =>
    if parser.buffer.head? = some '$' ∧ utf8Length parser.buffer = chunkLength then
      .continues [] { parser with state := .inCommand }
    else parser.holdBack

def iterateNormal (chunkLength : Nat) : Iteration :=
  if parser.codeModeEnabled then
    match splitOnce fence parser.buffer with
    | some (before, after) =>
      .continues (textUnlessBlank before)
        { parser with buffer := after, state := .inExecuteBlock }
    | none =>
      if bareFence <:+ parser.buffer then
        .continues
          (textUnlessBlank (trimEndMatches bareFence parser.buffer.length parser.buffer))
          { parser with buffer := [], state := .inExecuteBlock }
      else parser.iterateShell chunkLength
  else parser.iterateShell chunkLength

def iterate (chunkLength : Nat) : Iteration :=
  match parser.state with
  | .inCommand => parser.iterateInCommand
  | .inExecuteBlock => parser.iterateInExecuteBlock
  | .normal => parser.iterateNormal chunkLength

end StreamingEmulatorParser

/-- The loop, with fuel. -/
def parserLoop (chunkLength : Nat) :
    Nat → StreamingEmulatorParser → List EmulatorAction × StreamingEmulatorParser
  | 0, parser => ([], parser)
  | fuel + 1, parser =>
    match parser.iterate chunkLength with
    | .breaks results parser => (results, parser)
    | .continues results parser =>
      let later := parserLoop chunkLength fuel parser
      (results ++ later.1, later.2)

namespace StreamingEmulatorParser

variable (parser : StreamingEmulatorParser)

/-- Every round takes a character off the buffer or leaves the state of plain text. -/
def fuel : Nat :=
  2 * parser.buffer.length + 2

def pushChunk (chunk : List Char) : StreamingEmulatorParser :=
  { parser with buffer := parser.buffer ++ chunk }

def processChunk (chunk : List Char) : List EmulatorAction × StreamingEmulatorParser :=
  parserLoop (utf8Length chunk) (parser.pushChunk chunk).fuel (parser.pushChunk chunk)

def flush : List EmulatorAction :=
  if parser.buffer.isEmpty then []
  else
    match parser.state with
    | .inCommand =>
      let commandLine := trim parser.buffer
      if commandLine.head? = some '$' then commandOf commandLine
      else if commandLine.isEmpty then []
      else [.text (String.ofList parser.buffer)]
    | .inExecuteBlock =>
      let code := trim parser.buffer
      if code.isEmpty then [] else [.executeCode (String.ofList code)]
    | .normal => [.text (String.ofList parser.buffer)]

/-- All actions of the chunks and of the end of the text. -/
def parseChunks (parser : StreamingEmulatorParser) : List (List Char) → List EmulatorAction
  | [] => parser.flush
  | chunk :: rest =>
    (parser.processChunk chunk).1 ++ (parser.processChunk chunk).2.parseChunks rest

end StreamingEmulatorParser

/-!
## Reading emulated tool calls

What a text means, whatever chunks it comes in: the lines that begin with a dollar sign are
commands, the fences hold code, and the rest is text.
-/

open List
open Obelus.Data (splitOnce NoneBegins splitOnce_eq_some_iff)
open Obelus.Formats (trim trimStart trimEnd)
open Obelus.Meetings.Validation (isWhitespace)

inductive Call
  | shell (command : String)
  | code (code : String)
  deriving DecidableEq

/-- A character of the text, or a call. -/
inductive Piece
  | character (c : Char)
  | call (call : Call)
  deriving DecidableEq

def charPieces (text : List Char) : List Piece :=
  text.map .character

def EmulatorAction.pieces : EmulatorAction → List Piece
  | .text sent => charPieces sent.toList
  | .shellCommand command => [.call (.shell command)]
  | .executeCode code => [.call (.code code)]

/-- The actions and the text between them. -/
def piecesOf (actions : List EmulatorAction) : List Piece :=
  actions.flatMap EmulatorAction.pieces

/-- Every call with the text in front of it, and the text behind the last call.  White space at
the ends of a text is left out. -/
def shownFrom (front : List Char) : List Piece → List (List Char × Option Call)
  | [] => [(trim front, none)]
  | .character c :: rest => shownFrom (front ++ [c]) rest
  | .call call :: rest => (trim front, some call) :: shownFrom [] rest

def shown (pieces : List Piece) : List (List Char × Option Call) :=
  shownFrom [] pieces

/-- Whether the text behind the last call is blank, behind other text that may be blank. -/
def endsBlank : Bool → List Piece → Bool
  | blank, [] => blank
  | blank, .character c :: rest => endsBlank (blank && isWhitespace c) rest
  | _, .call _ :: rest => endsBlank true rest

/-- Whether the text in front of the first call is blank. -/
def beginsBlank : List Piece → Bool
  | [] => true
  | .character c :: rest => isWhitespace c && beginsBlank rest
  | .call _ :: _ => true

/-- What stands between some pieces is at the begin or at the end of a text. -/
def atEdge (before behind : List Piece) : Bool :=
  endsBlank true before || beginsBlank behind

@[simp]
theorem piecesOf_nil : piecesOf [] = [] :=
  rfl

@[simp]
theorem piecesOf_append (first second : List EmulatorAction) :
    piecesOf (first ++ second) = piecesOf first ++ piecesOf second :=
  flatMap_append

@[simp]
theorem piecesOf_text (text : List Char) :
    piecesOf [.text (String.ofList text)] = charPieces text := by
  simp [piecesOf, EmulatorAction.pieces]

@[simp]
theorem charPieces_append (first second : List Char) :
    charPieces (first ++ second) = charPieces first ++ charPieces second :=
  map_append

variable {text rest first second front : List Char} {c : Char} {codeMode lineStart : Bool}
  {before behind : List Piece}

theorem piecesOf_textUnlessBlank (text : List Char) :
    piecesOf (textUnlessBlank text) = if isBlank text then [] else charPieces text := by
  rw [textUnlessBlank]
  split
  · exact piecesOf_nil
  · exact piecesOf_text text

theorem trim_append_blank (blank : isWhitespace c) (text : List Char) :
    trim (text ++ [c]) = trim text := by
  rw [trim, trim, trimStart, dropWhile_append]
  split
  · next isEmpty => simp [isEmpty_iff.mp isEmpty, blank, trimStart]
  · exact rdropWhile_concat_pos _ _ _ blank

theorem trim_trimEnd (text : List Char) : trim (trimEnd text) = trim text := by
  induction text using reverseRecOn with
  | nil => rfl
  | append_singleton rest c ih =>
    by_cases blank : isWhitespace c
    · rw [trim_append_blank blank, ← ih]
      exact congrArg trim (rdropWhile_concat_pos _ _ _ blank)
    · exact congrArg trim (rdropWhile_concat_neg _ _ _ blank)

theorem trim_append_of_blank (blank : ∀ c ∈ second, isWhitespace c = true) (first : List Char) :
    trim (first ++ second) = trim first := by
  induction second using reverseRecOn with
  | nil => rw [append_nil]
  | append_singleton rest c ih =>
    rw [← append_assoc, trim_append_blank (blank c mem_concat_self)]
    exact ih fun other isIn => blank other (mem_append_left _ isIn)

theorem trim_blank_append (blank : ∀ c ∈ first, isWhitespace c = true) (second : List Char) :
    trim (first ++ second) = trim second := by
  rw [trim, trim, trimStart, dropWhile_append_of_pos blank, trimStart]

theorem isWhitespace_of_isBlank (blank : isBlank text) : ∀ c ∈ text, isWhitespace c = true := by
  have isEmpty : trimEnd (trimStart text) = [] := isEmpty_iff.mp blank
  rw [← takeWhile_append_dropWhile (p := isWhitespace) (l := text)]
  intro c isIn
  rcases mem_append.mp isIn with isFront | isBehind
  · exact mem_takeWhile_imp isFront
  · exact rdropWhile_eq_nil_iff.mp isEmpty c isBehind

theorem shownFrom_blank_append (blank : ∀ c ∈ first, isWhitespace c = true)
    (second : List Char) (pieces : List Piece) :
    shownFrom (first ++ second) pieces = shownFrom second pieces := by
  induction pieces generalizing second with
  | nil => rw [shownFrom, shownFrom, trim_blank_append blank]
  | cons piece rest ih =>
    cases piece with
    | character c => rw [shownFrom, shownFrom, append_assoc, ih]
    | call call => rw [shownFrom, shownFrom, trim_blank_append blank]

theorem shownFrom_append_blank (blank : ∀ c ∈ second, isWhitespace c = true)
    (begins : beginsBlank behind = true) :
    shownFrom (first ++ second) behind = shownFrom first behind := by
  induction behind generalizing second with
  | nil => rw [shownFrom, shownFrom, trim_append_of_blank blank]
  | cons piece rest ih =>
    cases piece with
    | character c =>
      obtain ⟨isWhite, begins⟩ := Bool.and_eq_true_iff.mp begins
      have whiteOne : ∀ other ∈ [c], isWhitespace other = true := by simpa using isWhite
      have whiteAll : ∀ other ∈ second ++ [c], isWhitespace other = true := by
        intro other isIn
        rcases mem_append.mp isIn with isSecond | isLast
        · exact blank other isSecond
        · exact whiteOne other isLast
      rw [shownFrom, shownFrom, append_assoc, ih whiteAll begins, ih whiteOne begins]
    | call call => rw [shownFrom, shownFrom, trim_append_of_blank blank]

/-- A blank character at the end of a text is not shown. -/
theorem shownFrom_drop (isWhite : isWhitespace c = true)
    (edge : endsBlank (front.all isWhitespace) before = true ∨ beginsBlank behind = true) :
    shownFrom front (before ++ .character c :: behind) = shownFrom front (before ++ behind) := by
  induction before generalizing front with
  | nil =>
    have whiteOne : ∀ other ∈ [c], isWhitespace other = true := by simpa using isWhite
    rw [nil_append, nil_append, shownFrom]
    rcases edge with ends | begins
    · have blank := all_eq_true.mp ends
      rw [shownFrom_blank_append blank, ← append_nil [c], shownFrom_blank_append whiteOne,
        ← shownFrom_blank_append blank [], append_nil]
    · exact shownFrom_append_blank whiteOne begins
  | cons piece rest ih =>
    cases piece with
    | character other =>
      rw [cons_append, cons_append, shownFrom, shownFrom]
      apply ih
      rw [endsBlank] at edge
      simpa using edge
    | call call =>
      rw [cons_append, cons_append, shownFrom, shownFrom]
      exact congrArg _ (ih edge)

theorem beginsBlank_append (blank : ∀ c ∈ text, isWhitespace c = true)
    (begins : beginsBlank behind = true) : beginsBlank (charPieces text ++ behind) = true := by
  induction text with
  | nil => exact begins
  | cons c rest ih =>
    obtain ⟨isWhite, blank⟩ := forall_mem_cons.mp blank
    exact Bool.and_eq_true_iff.mpr ⟨isWhite, ih blank⟩

/-- A blank text that is left out at the end of a text is not missed. -/
theorem shown_drop (blank : ∀ c ∈ text, isWhitespace c = true) (edge : atEdge before behind) :
    shown (before ++ (charPieces text ++ behind)) = shown (before ++ behind) := by
  have edge := Bool.or_eq_true_iff.mp edge
  induction text with
  | nil => rfl
  | cons c rest ih =>
    obtain ⟨isWhite, blank⟩ := forall_mem_cons.mp blank
    rw [← ih blank]
    exact shownFrom_drop isWhite (edge.imp_right (beginsBlank_append blank))

/-- A text that is left out when it is blank. -/
def dropsAtEdge (before : List Piece) (text : List Char) (behind : List Piece) : Bool :=
  !isBlank text || text.isEmpty || atEdge before behind

theorem shown_textUnlessBlank (drops : dropsAtEdge before text behind) :
    shown (before ++ (charPieces text ++ behind)) =
      shown (before ++ (piecesOf (textUnlessBlank text) ++ behind)) := by
  rw [piecesOf_textUnlessBlank]
  split
  · next blank =>
    simp only [dropsAtEdge, blank, Bool.not_true, Bool.false_or, Bool.or_eq_true] at drops
    rcases drops with isEmpty | edge
    · rw [isEmpty_iff.mp isEmpty]
      rfl
    · exact shown_drop (isWhitespace_of_isBlank blank) edge
  · rfl

theorem trim_dollar (command : List Char) : trim ('$' :: command) = '$' :: trimEnd command := by
  have isStart : trimStart ('$' :: command) = '$' :: command := by
    rfl
  rw [trim, isStart]
  induction command using reverseRecOn with
  | nil => decide
  | append_singleton rest c ih =>
    rw [trimEnd, ← cons_append, trimEnd]
    by_cases blank : isWhitespace c
    · rw [rdropWhile_concat_pos _ _ _ blank, rdropWhile_concat_pos _ _ _ blank]
      refine ih ?_
      rfl
    · rw [rdropWhile_concat_neg _ _ _ blank, rdropWhile_concat_neg _ _ _ blank, cons_append]

/-- At the end of the text the line of a command is trimmed before it is read. -/
theorem commandOf_trim (command : List Char) :
    commandOf (trim ('$' :: command)) = commandOf ('$' :: command) := by
  rw [trim_dollar]
  simp only [commandOf, isBlank, trim_trimEnd]
  rfl

/-- The code of a closed block. -/
def closedCode (code : List Char) : List EmulatorAction :=
  if isBlank code then [] else [.executeCode (String.ofList code)]

/-- The code of a block that the end of the text closes. -/
def unclosedCode (code : List Char) : List EmulatorAction :=
  if isBlank code then [] else [.executeCode (String.ofList (trim code))]

theorem length_splitOnce {pattern before after : List Char}
    (found : splitOnce pattern text = some (before, after)) :
    text.length = before.length + pattern.length + after.length := by
  rw [(splitOnce_eq_some_iff.mp found).1]
  simp only [length_append]
  omega

/-- The pieces of a text, whose first character may begin a line.  A fence that the end of the
text cuts before its line ends opens nothing. -/
def readText (codeMode lineStart : Bool) (text : List Char) : List Piece :=
  match text with
  | [] => []
  | c :: rest =>
    if lineStart && c == '$' then
      match _ : splitOnce ['\n'] (c :: rest) with
      | some (line, after) => piecesOf (commandOf line) ++ readText codeMode true after
      | none => piecesOf (commandOf (c :: rest))
    else if codeMode && fence.isPrefixOf (c :: rest) then
      match _ : splitOnce closingFence ((c :: rest).drop fence.length) with
      | some (code, after) => piecesOf (closedCode code) ++ readText codeMode false after
      | none => piecesOf (unclosedCode ((c :: rest).drop fence.length))
    else if codeMode && c :: rest == bareFence then []
    else charPieces [c] ++ readText codeMode (c == '\n') rest
termination_by text.length
decreasing_by
  · have length := length_splitOnce ‹splitOnce _ _ = some (_, _)›
    simp only [length_cons, length_nil] at length ⊢
    omega
  · have length := length_splitOnce ‹splitOnce _ _ = some (_, _)›
    simp only [length_drop, length_cons] at length ⊢
    have closing : 0 < closingFence.length := by decide
    omega
  · simp

/-- The reading of a line that is a command, and of what follows it. -/
def readCommand (codeMode : Bool) (text : List Char) : List Piece :=
  match splitOnce ['\n'] text with
  | some (line, after) => piecesOf (commandOf line) ++ readText codeMode true after
  | none => piecesOf (commandOf text)

/-- The reading of code behind a fence, and of what follows it. -/
def readBlock (codeMode : Bool) (text : List Char) : List Piece :=
  match splitOnce closingFence text with
  | some (code, after) => piecesOf (closedCode code) ++ readText codeMode false after
  | none => piecesOf (unclosedCode text)

@[simp]
theorem readText_nil (codeMode lineStart : Bool) : readText codeMode lineStart [] = [] := by
  rw [readText]

theorem readText_dollar (codeMode : Bool) (rest : List Char) :
    readText codeMode true ('$' :: rest) = readCommand codeMode ('$' :: rest) := by
  rw [readText, readCommand]
  simp only [Bool.true_and, beq_self_eq_true, if_true]
  split
  · next line after found => rw [found]
  · next found => rw [found]

theorem readText_fence (lineStart : Bool) (rest : List Char) :
    readText true lineStart (fence ++ rest) = readBlock true rest := by
  have isCons : fence ++ rest = '`' :: (fence.tail ++ rest) := rfl
  have begins : fence.isPrefixOf ('`' :: (fence.tail ++ rest)) = true := by
    rw [List.isPrefixOf_iff_prefix]
    exact prefix_append _ _
  have drops : ('`' :: (fence.tail ++ rest)).drop fence.length = rest := by
    rw [← isCons, drop_left]
  rw [isCons, readText, readBlock, begins, drops]
  have notDollar : ('`' == '$') = false := rfl
  simp only [notDollar, Bool.and_false, Bool.false_eq_true, if_false, Bool.and_self, if_true]
  split
  · next code after found => rw [found]
  · next found => rw [found]

theorem readText_bareFence (lineStart : Bool) : readText true lineStart bareFence = [] := by
  have isCons : bareFence = '`' :: bareFence.tail := rfl
  have notWhole : fence.isPrefixOf ('`' :: bareFence.tail) = false := by decide
  have notDollar : ('`' == '$') = false := rfl
  rw [isCons, readText, notWhole, ← isCons]
  simp [notDollar]

theorem readText_cons (noCommand : (lineStart && c == '$') = false)
    (noFence : codeMode = true → ¬fence <+: c :: rest)
    (notBare : codeMode = true → c :: rest ≠ bareFence) : readText codeMode lineStart (c :: rest) =
      charPieces [c] ++ readText codeMode (c == '\n') rest := by
  have whole : (codeMode && fence.isPrefixOf (c :: rest)) = false := by
    rw [Bool.and_eq_false_imp]
    intro isCodeMode
    rw [← Bool.not_eq_true, isPrefixOf_iff_prefix]
    exact noFence isCodeMode
  have bare : (codeMode && c :: rest == bareFence) = false := by
    rw [Bool.and_eq_false_imp]
    intro isCodeMode
    exact beq_eq_false_iff_ne.mpr (notBare isCodeMode)
  rw [readText]
  simp only [noCommand, whole, bare, Bool.false_eq_true, if_false]

theorem readText_lineFeed (codeMode lineStart : Bool) (rest : List Char) :
    readText codeMode lineStart ('\n' :: rest) =
      charPieces ['\n'] ++ readText codeMode true rest := by
  have notDollar : ('\n' == '$') = false := rfl
  rw [readText_cons (by rw [notDollar, Bool.and_false])]
  · rfl
  · rintro - ⟨more, begins⟩
    cases (cons.inj begins).1
  · rintro - isBare
    cases (cons.inj isBare).1

theorem stripLineFeed_cases (text : List Char) :
    text = stripLineFeed text ∨ text = '\n' :: stripLineFeed text := by
  rw [stripLineFeed.eq_def]
  split
  · exact .inr rfl
  · exact .inl rfl

/-- Whether a line begins behind the text. -/
def endsLine : Bool → List Char → Bool
  | lineStart, [] => lineStart
  | _, c :: rest => endsLine (c == '\n') rest

@[simp]
theorem endsLine_append (lineStart : Bool) (first second : List Char) :
    endsLine lineStart (first ++ second) = endsLine (endsLine lineStart first) second := by
  induction first generalizing lineStart with
  | nil => rfl
  | cons c rest ih => exact ih _

/-- No line of the text begins with a dollar sign. -/
def noDollarLine : Bool → List Char → Bool
  | _, [] => true
  | lineStart, c :: rest => !(lineStart && c == '$') && noDollarLine (c == '\n') rest

@[simp]
theorem noDollarLine_append (lineStart : Bool) (first second : List Char) :
    noDollarLine lineStart (first ++ second) =
      (noDollarLine lineStart first && noDollarLine (endsLine lineStart first) second) := by
  induction first generalizing lineStart with
  | nil => rfl
  | cons c rest ih =>
    rw [cons_append, noDollarLine, noDollarLine, endsLine, ih, Bool.and_assoc]

/-- A line begins at the first character or behind a line feed. -/
theorem noDollarLine_of_noneBegins (none : NoneBegins ['\n', '$'] first second)
    (head : lineStart = true → first.head? ≠ some '$') : noDollarLine lineStart first := by
  induction first generalizing lineStart with
  | nil => rfl
  | cons c rest ih =>
    obtain ⟨notHere, none⟩ := Data.noneBegins_cons_iff.mp none
    have isFirst : (lineStart && c == '$') = false := by
      rw [Bool.and_eq_false_imp]
      intro isStart
      have notDollar := head isStart
      simpa using notDollar
    rw [noDollarLine, isFirst]
    refine ih none ?_
    intro isLineFeed isDollar
    refine notHere ?_
    obtain rfl : c = '\n' := by simpa using isLineFeed
    cases rest with
    | nil => cases isDollar
    | cons other rest =>
      obtain rfl : other = '$' := by simpa using isDollar
      exact ⟨rest ++ second, rfl⟩

/-- In code mode no fence begins in the first part, nor one that the end of the text cuts. -/
def NoFence (codeMode : Bool) (first second : List Char) : Prop :=
  codeMode = true → NoneBegins fence first second ∧
    ∀ front back, first = front ++ back → back ≠ [] → back ++ second ≠ bareFence

theorem noFence_cons (none : NoFence codeMode (c :: rest) second) :
    NoFence codeMode rest second := by
  intro isCodeMode
  obtain ⟨noFence, notBare⟩ := none isCodeMode
  refine ⟨(Data.noneBegins_cons_iff.mp noFence).2, ?_⟩
  intro front back isRest notEmpty
  exact notBare (c :: front) back (by rw [isRest, cons_append]) notEmpty

/-- The reading passes over plain text. -/
theorem readText_append (noDollar : noDollarLine lineStart first)
    (noFence : NoFence codeMode first second) : readText codeMode lineStart (first ++ second) =
      charPieces first ++ readText codeMode (endsLine lineStart first) second := by
  induction first generalizing lineStart with
  | nil => rfl
  | cons c rest ih =>
    rw [noDollarLine, Bool.and_eq_true, Bool.not_eq_true'] at noDollar
    have here : codeMode = true → ¬fence <+: c :: (rest ++ second) := fun isCodeMode =>
      (Data.noneBegins_cons_iff.mp (noFence isCodeMode).1).1
    have notBare : codeMode = true → c :: (rest ++ second) ≠ bareFence := fun isCodeMode =>
      (noFence isCodeMode).2 [] (c :: rest) rfl (cons_ne_nil _ _)
    calc readText codeMode lineStart (c :: (rest ++ second))
        = charPieces [c] ++ readText codeMode (c == '\n') (rest ++ second) :=
          readText_cons noDollar.1 here notBare
      _ = charPieces [c] ++
            (charPieces rest ++ readText codeMode (endsLine (c == '\n') rest) second) := by
          rw [ih noDollar.2 (noFence_cons noFence)]
      _ = charPieces (c :: rest) ++
            readText codeMode (endsLine lineStart (c :: rest)) second := by
          rw [← append_assoc, ← charPieces_append]
          rfl

end Obelus.LocalInference
