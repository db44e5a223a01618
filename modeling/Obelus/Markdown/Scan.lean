import Mathlib.Data.List.TakeWhile
import Obelus.Data.JsonText
import Obelus.Data.Occurrence
import Obelus.Meetings.Validation

/-!
# The streaming markdown buffer

Chunks are collected until they can be shown.  The buffer is scanned line by line;
the scan remembers which marks are open, and the text is drained up to the last
place at which none is.  A scan goes on from the checkpoint that the push before it
left.  Positions count characters: every position of the source is a boundary of one.
-/

namespace Obelus.Markdown

open Data (splitOnce)
open Meetings.Validation (isWhitespace)

/-- The settings of the environment, and the path that a text was saved to. -/
structure Truncation where
  maxCodeBlockLines : Option Nat
  truncatedShowLines : Nat
  saveToTempFile : List Char → Option (List Char)

/-- Code blocks are shown whole. -/
def noTruncation : Truncation where
  maxCodeBlockLines := none
  truncatedShowLines := 20
  saveToTempFile := fun _ => none

def find (pattern text : List Char) : Option Nat :=
  (splitOnce pattern text).map fun parts => parts.1.length

/-- The first opening fence: where it is, its character and the length of its run. -/
def findOpeningFence (content : List Char) : Option (Nat × Char × Nat) :=
  let fence (pos : Nat) (ch : Char) :=
    some (pos, ch, ((content.drop pos).takeWhile (· == ch)).length)
  match find "```".toList content, find "~~~".toList content with
  | some a, some b => if a ≤ b then fence a '`' else fence b '~'
  | some a, none => fence a '`'
  | none, some b => fence b '~'
  | none, none => none

/-- A line that holds nothing but a run of the fence character and white space. -/
def isClosingLine (fenceChar : Char) (minLen : Nat) (line : List Char) : Bool :=
  let fenceCount := (line.takeWhile (· == fenceChar)).length
  minLen ≤ fenceCount && ((line.drop fenceCount).takeWhile (· != '\n')).all isWhitespace

/-- The offset of the line break before the closing fence. -/
def findClosingFence (fenceChar : Char) (minLen : Nat) : List Char → Option Nat
  | [] => none
  | c :: rest =>
    if c = '\n' ∧ isClosingLine fenceChar minLen rest then some 0
    else (findClosingFence fenceChar minLen rest).map (· + 1)

/-- One line of `str::lines`, without a carriage return at its end. -/
def withoutReturn (line : List Char) : List Char :=
  if line.getLast? = some '\r' then line.dropLast else line

/-- `str::lines`; the characters of the line that has begun come first. -/
def textLines : List Char → List Char → List (List Char)
  | [], [] => []
  | begun, [] => [begun]
  | begun, c :: rest =>
    if c = '\n' then withoutReturn begun :: textLines [] rest
    else textLines (begun ++ [c]) rest

def truncateCodeBlocksWith (saveToTempFile : List Char → Option (List Char))
    (maxLines showLines : Nat) (content : List Char) : List Char :=
  match findOpeningFence content with
  | none => content
  | some (openPos, fenceChar, fenceLen) =>
    let afterFence := openPos + fenceLen
    match find ['\n'] (content.drop afterFence) with
    | none => content
    | some newlinePos =>
      let codeStart := afterFence + newlinePos + 1
      let codeRegion := content.drop codeStart
      match findClosingFence fenceChar fenceLen codeRegion with
      | none => content
      | some closeOffset =>
        let codeContent := codeRegion.take closeOffset
        let lines := textLines [] codeContent
        if lines.length ≤ maxLines then content
        else
          let shown := min (min showLines maxLines) lines.length
          let fileMsg := ((saveToTempFile codeContent).map (" → ".toList ++ ·)).getD []
          content.take codeStart ++ List.intercalate ['\n'] (lines.take shown) ++
            "\n... (".toList ++ (toString (lines.length - shown)).toList ++
            " more lines".toList ++ fileMsg ++ ")\n".toList ++
            content.drop (codeStart + closeOffset + 1)

def truncateCodeBlocks (truncation : Truncation) (content : List Char) : List Char :=
  match truncation.maxCodeBlockLines with
  | none => content
  | some maxLines =>
    truncateCodeBlocksWith truncation.saveToTempFile maxLines truncation.truncatedShowLines
      content

structure ParseState where
  inCodeBlock : Bool := false
  codeFenceChar : Char := '\x00'
  codeFenceLen : Nat := 0
  inTable : Bool := false
  pendingHeading : Bool := false
  inInlineCode : Bool := false
  inlineCodeLen : Nat := 0
  inBold : Bool := false
  inItalic : Bool := false
  inStrikethrough : Bool := false
  inLinkText : Bool := false
  inLinkUrl : Bool := false
  inImageAlt : Bool := false

def ParseState.isClean (state : ParseState) : Bool :=
  !state.inCodeBlock && !state.inTable && !state.pendingHeading && !state.inInlineCode &&
    !state.inBold && !state.inItalic && !state.inStrikethrough && !state.inLinkText &&
    !state.inLinkUrl && !state.inImageAlt

/-- How far the scan is, what is open there and the last place where nothing was. -/
structure ScanCheckpoint where
  pos : Nat := 0
  state : ParseState := {}
  lastSafe : Nat := 0

structure MarkdownBuffer where
  buffer : List Char := []
  checkpoint : ScanCheckpoint := {}

def inlineMarks : List (List Char) :=
  ["***".toList, "**".toList, "*".toList, "___".toList, "__".toList, "_".toList, "~~".toList,
    "![".toList, "](".toList, "[".toList, "]".toList, ")".toList]

def isPlainText (c : Char) : Bool :=
  !(['\\', '*', '_', '`', '~', '[', ']', '!', '(', ')'].contains c)

/-- `\\.`: a backslash and a character that does not break the line. -/
def startsEscaped : List Char → Bool
  | '\\' :: c :: _ => c != '\n'
  | _ => false

/-- The length of the first match of `INLINE_TOKEN_RE`. -/
def tokenLength (text : List Char) : Nat :=
  let ticks := (text.takeWhile (· == '`')).length
  let plain := (text.takeWhile isPlainText).length
  if startsEscaped text then 2
  else if 0 < ticks then ticks
  else
    match inlineMarks.find? fun mark => mark.isPrefixOf text with
    | some mark => mark.length
    | none => if 0 < plain then plain else 1

/-- `INLINE_TOKEN_RE.find_iter`, for at most as many tokens as the first argument says. -/
def inlineTokens : Nat → List Char → List (List Char)
  | 0, _ => []
  | _ + 1, [] => []
  | n + 1, text => text.take (tokenLength text) :: inlineTokens n (text.drop (tokenLength text))

def processInlineToken (state : ParseState) (token : List Char) : ParseState :=
  if token.head? = some '\\' ∧ (token.map Char.utf8Size).sum = 2 then state
  else if token.head? = some '`' then
    if state.inInlineCode then
      if token.length = state.inlineCodeLen then
        { state with inInlineCode := false, inlineCodeLen := 0 }
      else state
    else { state with inInlineCode := true, inlineCodeLen := token.length }
  else if state.inInlineCode then state
  else if token ∈ ["***".toList, "___".toList] then
    if state.inBold ∧ state.inItalic then { state with inBold := false, inItalic := false }
    else if state.inBold then { state with inItalic := !state.inItalic }
    else if state.inItalic then { state with inBold := !state.inBold }
    else { state with inBold := true, inItalic := true }
  else if token ∈ ["**".toList, "__".toList] then { state with inBold := !state.inBold }
  else if token ∈ ["*".toList, "_".toList] then { state with inItalic := !state.inItalic }
  else if token = "~~".toList then { state with inStrikethrough := !state.inStrikethrough }
  else if token = "![".toList then { state with inImageAlt := true }
  else if token = "[".toList then
    if !state.inLinkText && !state.inImageAlt then { state with inLinkText := true } else state
  else if token = "](".toList then
    if state.inLinkText then { state with inLinkText := false, inLinkUrl := true }
    else if state.inImageAlt then { state with inImageAlt := false, inLinkUrl := true }
    else state
  else if token = ")".toList ∧ state.inLinkUrl then { state with inLinkUrl := false }
  else state

/-- The tokens of a line from a position on: the state after them and the last place
where nothing was open. -/
def scanTokens (pos : Nat) (state : ParseState) (lastSafe : Nat) :
    List (List Char) → ParseState × Nat
  | [] => (state, lastSafe)
  | token :: rest =>
    let next := processInlineToken state token
    let tokenEnd := pos + token.length
    scanTokens tokenEnd next (if next.isClean then tokenEnd else lastSafe) rest

/-- The place behind the first line break, or the end. -/
def lineEnd : List Char → Nat
  | [] => 0
  | c :: rest => if c = '\n' then 1 else lineEnd rest + 1

/-- The character and the length of the run that the text starts with, and the text
behind it. -/
def fenceRun (text : List Char) : Option (Char × Nat × List Char) :=
  text.head?.map fun c => (c, (text.takeWhile (· == c)).length, text.dropWhile (· == c))

/-- The text behind the run of a closing fence; it goes to the end of the buffer. -/
def endsFence (afterFence : List Char) : Bool :=
  afterFence.isEmpty || afterFence.head? == some '\n' || afterFence.all isWhitespace

/-- The white space that is skipped in front of the run may go over line breaks. -/
def checkCodeFence (line : List Char) (state : ParseState) : Option (Nat × ParseState) :=
  match fenceRun (line.dropWhile isWhitespace) with
  | none => none
  | some (fenceChar, fenceLen, afterFence) =>
    if fenceChar ≠ '`' ∧ fenceChar ≠ '~' then none
    else if fenceLen < 3 then none
    else if state.inCodeBlock then
      if fenceChar = state.codeFenceChar ∧ state.codeFenceLen ≤ fenceLen ∧
          endsFence afterFence then
        some (lineEnd line,
          { state with inCodeBlock := false, codeFenceChar := '\x00', codeFenceLen := 0 })
      else none
    else
      some (lineEnd line,
        { state with inCodeBlock := true, codeFenceChar := fenceChar, codeFenceLen := fenceLen })

def startsHeading (remaining : List Char) : Bool :=
  let hashes := (remaining.takeWhile (· == '#')).length
  let afterHashes := remaining.drop hashes
  0 < hashes && hashes ≤ 6 &&
    (afterHashes.isEmpty || afterHashes.head? == some ' ' || afterHashes.head? == some '\n')

def processLineStart (remaining : List Char) (state : ParseState) : Option Nat × ParseState :=
  let state := { state with pendingHeading := false }
  match checkCodeFence remaining state with
  | some (used, state) => (some used, state)
  | none =>
    if state.inCodeBlock then (none, state)
    else if startsHeading remaining then (none, { state with pendingHeading := true })
    else if remaining.head? = some '|' then (none, { state with inTable := true })
    else if (remaining.head? = some '\n' ∨ remaining = []) ∧ state.inTable then
      (some 1, { state with inTable := false })
    else if state.inTable then (none, { state with inTable := false })
    else (none, state)

def atLineStart (buffer : List Char) (pos : Nat) : Bool :=
  pos == 0 || buffer[pos - 1]? == some '\n'

/-- The rest of a line, mark by mark. -/
def scanInline (remaining : List Char) (reached : ScanCheckpoint) : ScanCheckpoint :=
  let line := remaining.take (lineEnd remaining)
  let scanned :=
    scanTokens reached.pos reached.state reached.lastSafe (inlineTokens line.length line)
  let pos := reached.pos + line.length
  if line.getLast? = some '\n' then
    let state := { scanned.1 with pendingHeading := false }
    { pos, state, lastSafe := if state.isClean then pos else scanned.2 }
  else { pos, state := scanned.1, lastSafe := scanned.2 }

/-- One turn of the loop. -/
def scanLine (buffer : List Char) (reached : ScanCheckpoint) : ScanCheckpoint :=
  let remaining := buffer.drop reached.pos
  let started :=
    if atLineStart buffer reached.pos then processLineStart remaining reached.state
    else (none, reached.state)
  match started with
  | (some used, state) =>
    { pos := reached.pos + used, state,
      lastSafe := if state.isClean then reached.pos + used else reached.lastSafe }
  | (none, state) =>
    if state.inCodeBlock then
      { pos := reached.pos + lineEnd remaining, state, lastSafe := reached.lastSafe }
    else scanInline remaining { reached with state }

/-- The start of the last line of a text. -/
def lastLineStart (text : List Char) : Nat :=
  text.length - (text.reverse.takeWhile (· != '\n')).length

def isReinterpretable (c : Char) : Bool :=
  ['`', '~', ' ', '\t', '\r', '\n'].contains c

/-- The loop over the lines above the limit. -/
def raiseLimit (buffer : List Char) : Nat → Nat → Nat
  | 0, limit => limit
  | fuel + 1, limit =>
    if limit = 0 then 0
    else
      let prevStart := lastLineStart (buffer.take (limit - 1))
      if ((buffer.take limit).drop prevStart).all isReinterpretable then
        raiseLimit buffer fuel prevStart
      else limit

def stableScanLimit (buffer : List Char) : Nat :=
  raiseLimit buffer buffer.length (lastLineStart buffer)

/-- The loop over the lines: the checkpoint that is kept and the last safe place. -/
def scanLines (buffer : List Char) (stableLimit : Nat) :
    Nat → ScanCheckpoint → ScanCheckpoint → ScanCheckpoint × Nat
  | 0, reached, kept => (kept, reached.lastSafe)
  | fuel + 1, reached, kept =>
    if reached.pos < buffer.length then
      scanLines buffer stableLimit fuel (scanLine buffer reached)
        (if atLineStart buffer reached.pos ∧ reached.pos ≤ stableLimit then reached else kept)
    else (kept, reached.lastSafe)

/-- Every turn of the loop consumes a character. -/
def findSafeEnd (self : MarkdownBuffer) : ScanCheckpoint × Nat :=
  scanLines self.buffer (stableScanLimit self.buffer) self.buffer.length self.checkpoint
    self.checkpoint

def push (truncation : Truncation) (self : MarkdownBuffer) (chunk : List Char) :
    Option (List Char) × MarkdownBuffer :=
  let buffer := self.buffer ++ chunk
  let scanned := findSafeEnd { self with buffer }
  if 0 < scanned.2 then
    (some (truncateCodeBlocks truncation (buffer.take scanned.2)),
      { buffer := buffer.drop scanned.2 })
  else (none, { buffer, checkpoint := scanned.1 })

/-!
## Turns of the scan

A turn of the scan reads one line, so that every turn starts where a line does.  What
the loop returns is what the turns lead to: the last safe place is that of the state
in which no turn is left, and the checkpoint that is kept is a state on the way to it.
-/

open List

theorem lineEnd_cons (c : Char) (rest : List Char) :
    lineEnd (c :: rest) = if c = '\n' then 1 else lineEnd rest + 1 := rfl

variable {text line above buffer : List Char} {pos used : Nat} {state : ParseState}
  {reached start : ScanCheckpoint}

theorem lineEnd_of_not_mem (noBreak : '\n' ∉ text) : lineEnd text = text.length := by
  induction text with
  | nil => rfl
  | cons c rest ih =>
    rw [mem_cons, not_or] at noBreak
    rw [lineEnd_cons, if_neg (Ne.symm noBreak.1), ih noBreak.2, length_cons]

theorem lineEnd_line (noBreak : '\n' ∉ line) (rest : List Char) :
    lineEnd (line ++ '\n' :: rest) = line.length + 1 := by
  induction line with
  | nil => rw [nil_append, lineEnd_cons, if_pos rfl, length_nil]
  | cons c line ih =>
    rw [mem_cons, not_or] at noBreak
    rw [cons_append, lineEnd_cons, if_neg (Ne.symm noBreak.1), ih noBreak.2, length_cons]

/-- A text is one line without a break, or it begins with a line and its break. -/
theorem line_cases (text : List Char) :
    '\n' ∉ text ∨ ∃ line rest, text = line ++ '\n' :: rest ∧ '\n' ∉ line := by
  by_cases breaks : '\n' ∈ text
  · exact Or.inr (eq_append_cons_of_mem breaks)
  · exact Or.inl breaks

theorem lineEnd_append (breaks : '\n' ∈ text) (more : List Char) :
    lineEnd (text ++ more) = lineEnd text := by
  rcases line_cases text with absent | ⟨line, rest, rfl, noBreak⟩
  · exact absurd breaks absent
  · rw [append_assoc, cons_append, lineEnd_line noBreak, lineEnd_line noBreak]

theorem lineEnd_le_length (text : List Char) : lineEnd text ≤ text.length := by
  rcases line_cases text with absent | ⟨line, rest, rfl, noBreak⟩
  · exact (lineEnd_of_not_mem absent).le
  · rw [lineEnd_line noBreak, length_append, length_cons]
    omega

theorem lineEnd_pos (notEmpty : text ≠ []) : 0 < lineEnd text := by
  cases text with
  | nil => exact absurd rfl notEmpty
  | cons c rest =>
    rw [lineEnd_cons]
    split <;> omega

/-- The text behind this one starts a line. -/
def StartsLine (above : List Char) : Prop :=
  above = [] ∨ ∃ before, above = before ++ ['\n']

theorem exists_lastLine (text : List Char) :
    ∃ above line, text = above ++ line ∧ StartsLine above ∧ '\n' ∉ line := by
  induction text with
  | nil => exact ⟨[], [], rfl, Or.inl rfl, not_mem_nil⟩
  | cons c rest ih =>
    rcases ih with ⟨above, line, rfl, starts, noBreak⟩
    rcases starts with rfl | ⟨before, rfl⟩
    · by_cases isBreak : c = '\n'
      · exact ⟨[c], line, rfl, Or.inr ⟨[], by rw [isBreak]; rfl⟩, noBreak⟩
      · refine ⟨[], c :: line, rfl, Or.inl rfl, ?_⟩
        rw [mem_cons, not_or]
        exact ⟨Ne.symm isBreak, noBreak⟩
    · exact ⟨c :: (before ++ ['\n']), line, rfl, Or.inr ⟨c :: before, rfl⟩, noBreak⟩

theorem lastLineStart_eq (starts : StartsLine above) (noBreak : '\n' ∉ line) :
    lastLineStart (above ++ line) = above.length := by
  have isLine : ∀ c ∈ line.reverse, (c != '\n') = true := by
    intro c isMember
    rw [bne_iff_ne]
    rintro rfl
    exact noBreak (mem_reverse.mp isMember)
  have stops : above.reverse.takeWhile (· != '\n') = [] := by
    rcases starts with rfl | ⟨before, rfl⟩
    · rfl
    · rw [reverse_append]
      rfl
  rw [lastLineStart, reverse_append, takeWhile_append_of_pos isLine, stops,
    append_nil, length_reverse, length_append]
  omega

theorem atLineStart_zero (buffer : List Char) : atLineStart buffer 0 = true := rfl

theorem atLineStart_append (within : pos ≤ above.length) (more more' : List Char) :
    atLineStart (above ++ more) pos = atLineStart (above ++ more') pos := by
  rw [atLineStart, atLineStart]
  cases pos with
  | zero => rfl
  | succ n => rw [getElem?_append_left (by omega), getElem?_append_left (by omega)]

theorem atLineStart_break (above more : List Char) :
    atLineStart (above ++ '\n' :: more) (above.length + 1) = true := by
  rw [atLineStart, Nat.add_sub_cancel, getElem?_append_right (by omega), Nat.sub_self]
  rfl

/-- The end of a line is where the next one starts, or the end of the text. -/
theorem atLineStart_lineEnd (within : pos < buffer.length) :
    pos + lineEnd (buffer.drop pos) = buffer.length ∨
      atLineStart buffer (pos + lineEnd (buffer.drop pos)) = true := by
  rcases line_cases (buffer.drop pos) with absent | ⟨line, rest, restEq, noBreak⟩
  · left
    rw [lineEnd_of_not_mem absent, length_drop]
    omega
  · right
    have whole : buffer = buffer.take pos ++ line ++ '\n' :: rest := by
      rw [append_assoc, ← restEq, take_append_drop]
    have starts := atLineStart_break (buffer.take pos ++ line) rest
    rw [← whole] at starts
    rw [restEq, lineEnd_line noBreak]
    rwa [length_append, length_take, min_eq_left within.le] at starts

theorem lineEnd_of_checkCodeFence {next : ParseState}
    (fenced : checkCodeFence line state = some (used, next)) : used = lineEnd line := by
  rw [checkCodeFence] at fenced
  split at fenced
  · cases fenced
  · split at fenced
    · cases fenced
    · split at fenced
      · cases fenced
      · split at fenced
        · split at fenced
          · cases fenced
            rfl
          · cases fenced
        · cases fenced
          rfl

/-- A line that is consumed at its start is consumed whole. -/
theorem lineEnd_of_processLineStart {remaining : List Char} (notEmpty : remaining ≠ [])
    (consumed : (processLineStart remaining state).1 = some used) : used = lineEnd remaining := by
  rw [processLineStart] at consumed
  split at consumed
  · next fenced =>
    cases consumed
    exact lineEnd_of_checkCodeFence fenced
  · split at consumed
    · cases consumed
    · split at consumed
      · cases consumed
      · split at consumed
        · cases consumed
        · split at consumed
          · next blank =>
            cases consumed
            rcases blank.1 with starts | isEmpty
            · cases remaining with
              | nil => cases starts
              | cons c rest =>
                cases starts
                rw [lineEnd_cons, if_pos rfl]
            · exact absurd isEmpty notEmpty
          · split at consumed <;> cases consumed

theorem pos_scanInline (remaining : List Char) (reached : ScanCheckpoint) :
    (scanInline remaining reached).pos = reached.pos + lineEnd remaining := by
  have lineLength : (remaining.take (lineEnd remaining)).length = lineEnd remaining := by
    rw [length_take, min_eq_left (lineEnd_le_length remaining)]
  rw [scanInline]
  split <;> simp only [lineLength]

/-- A turn reads one line. -/
theorem pos_scanLine (within : reached.pos < buffer.length) :
    (scanLine buffer reached).pos = reached.pos + lineEnd (buffer.drop reached.pos) := by
  have notEmpty : buffer.drop reached.pos ≠ [] := by
    rw [Ne, drop_eq_nil_iff]
    omega
  rw [scanLine]
  split
  · next used state started =>
    split at started
    · rw [lineEnd_of_processLineStart notEmpty (congrArg Prod.fst started)]
    · cases started
  · split
    · rfl
    · exact pos_scanInline _ _

/-- A turn of the loop. -/
def Turn (buffer : List Char) (reached next : ScanCheckpoint) : Prop :=
  reached.pos < buffer.length ∧ next = scanLine buffer reached

/-- The turns that lead from one state of the scan to another. -/
def Passes (buffer : List Char) : ScanCheckpoint → ScanCheckpoint → Prop :=
  Relation.ReflTransGen (Turn buffer)

/-- No turn is left. -/
def Ended (buffer : List Char) (reached : ScanCheckpoint) : Prop :=
  buffer.length ≤ reached.pos

theorem pos_lt_of_turn {next : ScanCheckpoint} (turn : Turn buffer reached next) :
    reached.pos < next.pos ∧ next.pos ≤ buffer.length := by
  rcases turn with ⟨within, rfl⟩
  have notEmpty : buffer.drop reached.pos ≠ [] := by
    rw [Ne, drop_eq_nil_iff]
    omega
  have positive := lineEnd_pos notEmpty
  have bound := lineEnd_le_length (buffer.drop reached.pos)
  rw [pos_scanLine within]
  rw [length_drop] at bound
  omega

theorem atLineStart_of_turn {next : ScanCheckpoint} (turn : Turn buffer reached next) :
    Ended buffer next ∨ atLineStart buffer next.pos = true := by
  rcases turn with ⟨within, rfl⟩
  rw [Ended, pos_scanLine within]
  exact (atLineStart_lineEnd within).imp (fun isEnd => isEnd.ge) id

/-- Every state on the way stands at the start of a line, or the scan has ended. -/
theorem atLineStart_of_passes (passes : Passes buffer start reached)
    (starts : atLineStart buffer start.pos = true) :
    Ended buffer reached ∨ atLineStart buffer reached.pos = true := by
  cases passes with
  | refl => exact Or.inr starts
  | tail _ turn => exact atLineStart_of_turn turn

/-- Two scans that meet end alike. -/
theorem eq_of_passes {first second : ScanCheckpoint} (toFirst : Passes buffer start first)
    (toSecond : Passes buffer start second) (firstEnded : Ended buffer first)
    (secondEnded : Ended buffer second) : first = second := by
  have unique : Relator.RightUnique (Turn buffer) := by
    intro reached next next' turn turn'
    rw [turn.2, turn'.2]
  have stays {ended other : ScanCheckpoint} (isEnded : Ended buffer ended)
      (passes : Passes buffer ended other) : ended = other := by
    rcases Relation.ReflTransGen.cases_head passes with same | ⟨next, turn, _⟩
    · exact same
    · exact absurd turn.1 (Nat.not_lt.mpr isEnded)
  rcases Relation.ReflTransGen.total_of_right_unique unique toFirst toSecond with on | on
  · exact stays firstEnded on
  · exact (stays secondEnded on).symm

/-- With a turn for each character the loop goes to the end. -/
theorem exists_ended (buffer : List Char) (stableLimit fuel : Nat)
    (reached kept : ScanCheckpoint) (enough : buffer.length - reached.pos ≤ fuel) :
    ∃ ended, Passes buffer reached ended ∧ Ended buffer ended ∧
      (scanLines buffer stableLimit fuel reached kept).2 = ended.lastSafe := by
  induction fuel generalizing reached kept with
  | zero => exact ⟨reached, .refl, by rw [Ended]; omega, rfl⟩
  | succ fuel ih =>
    rw [scanLines]
    split
    · next within =>
      have turn : Turn buffer reached (scanLine buffer reached) := ⟨within, rfl⟩
      have advanced := pos_lt_of_turn turn
      rcases ih (scanLine buffer reached) _ (by omega) with ⟨ended, passes, isEnded, result⟩
      exact ⟨ended, .head turn passes, isEnded, result⟩
    · exact ⟨reached, .refl, by rw [Ended]; omega, rfl⟩

/-- The checkpoint that is kept is the old one or a line start within the limit. -/
theorem kept_cases (buffer : List Char) (stableLimit fuel : Nat)
    (reached kept : ScanCheckpoint) : (scanLines buffer stableLimit fuel reached kept).1 = kept ∨
      Passes buffer reached (scanLines buffer stableLimit fuel reached kept).1 ∧
        (scanLines buffer stableLimit fuel reached kept).1.pos ≤ stableLimit ∧
        (scanLines buffer stableLimit fuel reached kept).1.pos < buffer.length := by
  induction fuel generalizing reached kept with
  | zero => exact Or.inl rfl
  | succ fuel ih =>
    rw [scanLines]
    split
    · next within =>
      have turn : Turn buffer reached (scanLine buffer reached) := ⟨within, rfl⟩
      rcases ih (scanLine buffer reached)
          (if atLineStart buffer reached.pos = true ∧ reached.pos ≤ stableLimit then reached
            else kept) with
        same | ⟨passes, inLimit, inside⟩
      · rw [same]
        split
        · next persists => exact Or.inr ⟨.refl, persists.2, within⟩
        · exact Or.inl rfl
      · exact Or.inr ⟨.head turn passes, inLimit, inside⟩
    · exact Or.inl rfl

/-- The chunk is at the end of the buffer. -/
def MarkdownBuffer.grow (self : MarkdownBuffer) (chunk : List Char) : MarkdownBuffer :=
  { self with buffer := self.buffer ++ chunk }

variable (truncation : Truncation) {self : MarkdownBuffer} {chunk : List Char}

theorem push_of_pos (drains : 0 < (findSafeEnd (self.grow chunk)).2) : push truncation self chunk =
      (some (truncateCodeBlocks truncation
          ((self.buffer ++ chunk).take (findSafeEnd (self.grow chunk)).2)),
        { buffer := (self.buffer ++ chunk).drop (findSafeEnd (self.grow chunk)).2 }) :=
  if_pos drains

theorem push_of_not_pos (keeps : ¬0 < (findSafeEnd (self.grow chunk)).2) :
    push truncation self chunk =
      (none, { self.grow chunk with checkpoint := (findSafeEnd (self.grow chunk)).1 }) :=
  if_neg keeps

end Obelus.Markdown
