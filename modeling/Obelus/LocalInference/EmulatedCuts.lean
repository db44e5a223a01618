import Obelus.LocalInference.EmulatedRounds

/-!
# Cuts of emulated tool calls

A text in chunks whose rounds all take the right turn gives what its reading gives, wherever
the cuts are.
-/

namespace Obelus.LocalInference

open List
open Obelus.Formats (trim)

/-- A round of the loop: what the rounds before have yielded, the text that has come, the text
still to come, the length of the chunk and the parser before the round. -/
structure Visit where
  before : List Piece
  sofar : List Char
  later : List Char
  chunkLength : Nat
  parser : StreamingEmulatorParser

/-- Whether the buffer begins at the begin of a line. -/
def lineStartOf (sofar : List Char) (parser : StreamingEmulatorParser) : Bool :=
  endsLine true (sofar.take (sofar.length - parser.buffer.length))

def Visit.lineStart (visit : Visit) : Bool :=
  lineStartOf visit.sofar visit.parser

def Visit.right (visit : Visit) : Bool :=
  rightTurn visit.lineStart visit.before visit.later visit.chunkLength visit.parser

/-- The rounds of the loop over one chunk. -/
def loopVisits (sofar later : List Char) (chunkLength : Nat) :
    Nat → List Piece → StreamingEmulatorParser → List Visit
  | 0, _, _ => []
  | fuel + 1, before, parser =>
    ⟨before, sofar, later, chunkLength, parser⟩ ::
      match parser.iterate chunkLength with
      | .breaks _ _ => []
      | .continues results next =>
        loopVisits sofar later chunkLength fuel (before ++ piecesOf results) next

/-- The rounds over all chunks. -/
def runVisits (before : List Piece) (sofar : List Char) (parser : StreamingEmulatorParser) :
    List (List Char) → List Visit
  | [] => []
  | chunk :: rest =>
    loopVisits (sofar ++ chunk) rest.flatten (utf8Length chunk) (parser.pushChunk chunk).fuel
        before (parser.pushChunk chunk) ++
      runVisits (before ++ piecesOf (parser.processChunk chunk).1) (sofar ++ chunk)
        (parser.processChunk chunk).2 rest

def newParser (codeMode : Bool) : StreamingEmulatorParser :=
  { codeModeEnabled := codeMode }

def visitsOf (codeMode : Bool) (chunks : List (List Char)) : List Visit :=
  runVisits [] [] (newParser codeMode) chunks

/-- Every round takes the right turn. -/
def RightlyCut (codeMode : Bool) (chunks : List (List Char)) : Prop :=
  ∀ visit ∈ visitsOf codeMode chunks, visit.right

/-- A line is read as a command only where it begins. -/
def CommandsBeginLines (codeMode : Bool) (chunks : List (List Char)) : Prop :=
  ∀ visit ∈ visitsOf codeMode chunks, visit.parser.state = .inCommand → visit.lineStart

instance (codeMode : Bool) (chunks : List (List Char)) : Decidable (RightlyCut codeMode chunks) :=
  inferInstanceAs (Decidable (∀ visit ∈ visitsOf codeMode chunks, visit.right = true))

def actionsOf (codeMode : Bool) (chunks : List (List Char)) : List EmulatorAction :=
  (newParser codeMode).parseChunks chunks

/-- The calls of a text in chunks and the text between them. -/
def shownOf (codeMode : Bool) (chunks : List (List Char)) : List (List Char × Option Call) :=
  shown (piecesOf (actionsOf codeMode chunks))

/-- Two cuttings of one text give the same commands, the same code and the same text between
them, and take no dollar sign within a line for a command. -/
def CutsAgree (codeMode : Bool) (first second : List (List Char)) : Prop :=
  shownOf codeMode first = shownOf codeMode second ∧
    CommandsBeginLines codeMode first ∧ CommandsBeginLines codeMode second

/-- What the parser holds: the end of the text so far, with a command only at the begin of a
line. -/
structure Holds (sofar : List Char) (parser : StreamingEmulatorParser) : Prop where
  isEnd : parser.buffer <:+ sofar
  command : parser.state = .inCommand →
    lineStartOf sofar parser = true ∧ parser.buffer.head? = some '$'

variable {before : List Piece} {sofar consumed later : List Char}
  {parser : StreamingEmulatorParser} {round : Iteration} {chunkLength : Nat} {chunks : List (List Char)}

theorem lineStartOf_eq {before : List Char} (isSofar : sofar = before ++ parser.buffer) :
    lineStartOf sofar parser = endsLine true before := by
  rw [lineStartOf, isSofar, length_append, Nat.add_sub_cancel, take_left]

theorem lineStartOf_next {next : StreamingEmulatorParser} (isEnd : parser.buffer <:+ sofar)
    (isBuffer : parser.buffer = consumed ++ next.buffer) :
    lineStartOf sofar next = endsLine (lineStartOf sofar parser) consumed := by
  obtain ⟨before, isSofar⟩ := isEnd
  have isNext : sofar = (before ++ consumed) ++ next.buffer := by
    rw [append_assoc, ← isBuffer, isSofar]
  rw [lineStartOf_eq isSofar.symm, lineStartOf_eq isNext, endsLine_append]

theorem holds_next (holds : Holds sofar parser)
    (follows : Follows (lineStartOf sofar parser) before later consumed parser round) :
    Holds sofar round.parser where
  isEnd := by
    refine IsSuffix.trans ?_ holds.isEnd
    rw [follows.buffer]
    exact suffix_append _ _
  command := by
    rw [lineStartOf_next holds.isEnd follows.buffer]
    exact follows.command

def readRest (sofar later : List Char) (parser : StreamingEmulatorParser) : List Piece :=
  readState parser.codeModeEnabled (lineStartOf sofar parser) parser.state (parser.buffer ++ later)

/-- What a loop over a chunk leaves behind. -/
structure Loops (before : List Piece) (sofar later : List Char) (parser : StreamingEmulatorParser)
    (out : List EmulatorAction × StreamingEmulatorParser) : Prop where
  holds : Holds sofar out.2
  codeMode : out.2.codeModeEnabled = parser.codeModeEnabled
  reads : shown (before ++ readRest sofar later parser) =
    shown (before ++ (piecesOf out.1 ++ readRest sofar later out.2))
  settled : Settled (lineStartOf sofar out.2) out.2

theorem reads_next (holds : Holds sofar parser)
    (follows : Follows (lineStartOf sofar parser) before later consumed parser round) :
    shown (before ++ readRest sofar later parser) =
      shown (before ++ (piecesOf round.results ++ readRest sofar later round.parser)) := by
  rw [readRest, follows.reads, readRest, lineStartOf_next holds.isEnd follows.buffer,
    follows.codeMode]

theorem loops_parserLoop (fuel : Nat) (enough : toDo parser < fuel) (holds : Holds sofar parser)
    (right : ∀ visit ∈ loopVisits sofar later chunkLength fuel before parser, visit.right) :
    Loops before sofar later parser (parserLoop chunkLength fuel parser) := by
  induction fuel generalizing before parser with
  | zero => omega
  | succ fuel ih =>
    have here : rightTurn (lineStartOf sofar parser) before later chunkLength parser :=
      right _ mem_cons_self
    obtain ⟨consumed, follows⟩ := follows_iterate holds.command here
    have holdsNext := holds_next holds follows
    have readsNext := reads_next holds follows
    rw [parserLoop]
    cases isRound : parser.iterate chunkLength with
    | breaks results next =>
      rw [isRound] at follows holdsNext readsNext
      have settled := settled_iterate here isRound follows.buffer
      rw [← lineStartOf_next holds.isEnd follows.buffer] at settled
      exact ⟨holdsNext, follows.codeMode, readsNext, settled⟩
    | continues results next =>
      rw [isRound] at follows holdsNext readsNext
      have less : toDo next < fuel := Nat.lt_of_lt_of_le (toDo_iterate isRound) (by omega)
      rw [loopVisits, isRound] at right
      have later := ih less holdsNext fun visit isIn => right visit (mem_cons_of_mem _ isIn)
      refine ⟨later.holds, later.codeMode.trans follows.codeMode, ?_, later.settled⟩
      have reads := later.reads
      rw [append_assoc, append_assoc] at reads
      rw [readsNext, piecesOf_append, append_assoc]
      exact reads

theorem commandsBegin_loopVisits (fuel : Nat) (holds : Holds sofar parser)
    (right : ∀ visit ∈ loopVisits sofar later chunkLength fuel before parser, visit.right) :
    ∀ visit ∈ loopVisits sofar later chunkLength fuel before parser,
      visit.parser.state = .inCommand → visit.lineStart := by
  induction fuel generalizing before parser with
  | zero => simp [loopVisits]
  | succ fuel ih =>
    have here : rightTurn (lineStartOf sofar parser) before later chunkLength parser :=
      right _ mem_cons_self
    obtain ⟨consumed, follows⟩ := follows_iterate holds.command here
    have holdsNext := holds_next holds follows
    rw [loopVisits] at right ⊢
    intro visit isIn
    obtain rfl | isLater := mem_cons.mp isIn
    · exact fun isCommand => (holds.command isCommand).1
    · cases isRound : parser.iterate chunkLength with
      | breaks results next =>
        rw [isRound] at isLater
        cases isLater
      | continues results next =>
        rw [isRound] at isLater right holdsNext
        exact ih holdsNext (fun visit isIn => right visit (mem_cons_of_mem _ isIn)) visit isLater

theorem lineStartOf_pushChunk (isEnd : parser.buffer <:+ sofar) (chunk : List Char) :
    lineStartOf (sofar ++ chunk) (parser.pushChunk chunk) = lineStartOf sofar parser := by
  obtain ⟨before, isSofar⟩ := isEnd
  have isPushed : sofar ++ chunk = before ++ (parser.pushChunk chunk).buffer := by
    rw [← isSofar, append_assoc]
    rfl
  rw [lineStartOf_eq isPushed, lineStartOf_eq isSofar.symm]

theorem holds_pushChunk (holds : Holds sofar parser) (chunk : List Char) :
    Holds (sofar ++ chunk) (parser.pushChunk chunk) where
  isEnd := by
    obtain ⟨before, isSofar⟩ := holds.isEnd
    refine ⟨before, ?_⟩
    rw [← isSofar, append_assoc]
    rfl
  command isCommand := by
    obtain ⟨atLineStart, isDollar⟩ := holds.command isCommand
    rw [lineStartOf_pushChunk holds.isEnd]
    refine ⟨atLineStart, ?_⟩
    rw [StreamingEmulatorParser.pushChunk, head?_append, isDollar]
    rfl

theorem toDo_lt_fuel (parser : StreamingEmulatorParser) : toDo parser < parser.fuel := by
  rw [toDo, StreamingEmulatorParser.fuel]
  split <;> omega

/-- The end of the text gives what the parser still holds. -/
theorem piecesOf_flush (holds : Holds sofar parser)
    (settled : Settled (lineStartOf sofar parser) parser) :
    piecesOf parser.flush = readRest sofar [] parser := by
  rw [StreamingEmulatorParser.flush, readRest, append_nil]
  rw [Settled] at settled
  split
  · next isEmpty =>
    rw [isEmpty_iff.mp isEmpty]
    cases isState : parser.state with
    | normal => exact (readText_nil _ _).symm
    | inCommand =>
      have isDollar := (holds.command isState).2
      rw [isEmpty_iff.mp isEmpty] at isDollar
      cases isDollar
    | inExecuteBlock => rfl
  · split
    · next inState =>
      rw [inState] at settled ⊢
      obtain ⟨command, isBuffer⟩ : ∃ command, parser.buffer = '$' :: command :=
        head?_eq_some_iff.mp (holds.command inState).2
      have isCommand : (trim parser.buffer).head? = some '$' := by
        rw [isBuffer, trim_dollar]
        rfl
      simp only [readState, readCommand]
      rw [if_pos isCommand, settled, isBuffer, commandOf_trim]
    · next inState =>
      rw [inState] at settled ⊢
      simp only [readState, readBlock]
      rw [settled]
      rfl
    · next inState =>
      rw [inState] at settled ⊢
      rw [piecesOf_text, readState, charPieces_eq_readText settled.1 settled.2]

/-- A rightly cut text shows its reading. -/
theorem shown_parseChunks (holds : Holds sofar parser)
    (settled : Settled (lineStartOf sofar parser) parser)
    (right : ∀ visit ∈ runVisits before sofar parser chunks, visit.right) :
    shown (before ++ piecesOf (parser.parseChunks chunks)) =
        shown (before ++ readRest sofar chunks.flatten parser) ∧
      ∀ visit ∈ runVisits before sofar parser chunks,
        visit.parser.state = .inCommand → visit.lineStart := by
  induction chunks generalizing before sofar parser with
  | nil =>
    constructor
    · rw [StreamingEmulatorParser.parseChunks, piecesOf_flush holds settled, flatten_nil]
    · simp [runVisits]
  | cons chunk rest ih =>
    have rightLoop := fun visit isIn => right visit (mem_append_left _ isIn)
    have rightRest := fun visit isIn => right visit (mem_append_right _ isIn)
    have pushed := holds_pushChunk holds chunk
    have loops : Loops before (sofar ++ chunk) rest.flatten (parser.pushChunk chunk)
        (parser.processChunk chunk) :=
      loops_parserLoop _ (toDo_lt_fuel _) pushed rightLoop
    obtain ⟨reads, begins⟩ := ih loops.holds loops.settled rightRest
    rw [append_assoc, append_assoc] at reads
    constructor
    · calc shown (before ++ piecesOf (parser.parseChunks (chunk :: rest)))
          = shown (before ++ (piecesOf (parser.processChunk chunk).1 ++
              readRest (sofar ++ chunk) rest.flatten (parser.processChunk chunk).2)) := by
            rw [StreamingEmulatorParser.parseChunks, piecesOf_append, reads]
        _ = shown (before ++
              readRest (sofar ++ chunk) rest.flatten (parser.pushChunk chunk)) := loops.reads.symm
        _ = shown (before ++ readRest sofar (chunk :: rest).flatten parser) := by
            rw [readRest, lineStartOf_pushChunk holds.isEnd, readRest, flatten_cons, ← append_assoc]
            rfl
    · intro visit isIn
      obtain isLoop | isRest := mem_append.mp isIn
      · exact commandsBegin_loopVisits _ pushed rightLoop visit isLoop
      · exact begins visit isRest

/-- Every rightly cut text shows the reading of the text and takes dollar signs at the begin of a
line only. -/
theorem shownOf_of_rightlyCut {codeMode : Bool} (right : RightlyCut codeMode chunks) :
    shownOf codeMode chunks = shown (readText codeMode true chunks.flatten) ∧
      CommandsBeginLines codeMode chunks := by
  have holds : Holds [] (newParser codeMode) := ⟨suffix_rfl, fun isCommand => by cases isCommand⟩
  have settled : Settled (lineStartOf [] (newParser codeMode)) (newParser codeMode) := by
    refine ⟨rfl, fun _ => ⟨Data.noneBegins_nil _ _, ?_⟩⟩
    rintro ⟨front, isEmpty⟩
    cases (append_eq_nil_iff.mp isEmpty).2
  exact shown_parseChunks holds settled right

/-- Two cuttings of one text agree if all their rounds take the right turn: no block opens in
front of a command, nor at a fence whose line goes on, a dollar sign at the begin of the buffer
is taken for a command exactly at the begin of a line, and no white space within a text is left
out. -/
theorem cutsAgree_of_rightlyCut (codeMode : Bool) (first second : List (List Char))
    (sameText : first.flatten = second.flatten) (rightFirst : RightlyCut codeMode first)
    (rightSecond : RightlyCut codeMode second) : CutsAgree codeMode first second := by
  obtain ⟨shownFirst, beginFirst⟩ := shownOf_of_rightlyCut rightFirst
  obtain ⟨shownSecond, beginSecond⟩ := shownOf_of_rightlyCut rightSecond
  refine ⟨?_, beginFirst, beginSecond⟩
  rw [shownFirst, shownSecond, sameText]

/-- Commands behind text of two words, in one chunk and character by character. -/
theorem cutsAgree_echo :
    CutsAgree false ["run it \n\n$ ls\nso\n$ pwd\n".toList]
      ("run it \n\n$ ls\nso\n$ pwd\n".toList.map fun c => [c]) :=
  cutsAgree_of_rightlyCut false _ _ (by decide) (by decide +kernel) (by decide +kernel)

/-- Two commands in one chunk: the first line is text. -/
theorem not_cutsAgree_twoCommands : ¬∀ (codeMode : Bool) (first second : List (List Char)),
      (∀ chunk ∈ first, chunk ≠ []) → (∀ chunk ∈ second, chunk ≠ []) →
        first.flatten = second.flatten → CutsAgree codeMode first second := by
  intro agree
  have same := agree false ["$ ls\n$ pwd\n".toList] ["$ ls\n".toList, "$ pwd\n".toList]
    (by decide) (by decide) (by decide)
  have differ : shownOf false ["$ ls\n$ pwd\n".toList] ≠
      shownOf false ["$ ls\n".toList, "$ pwd\n".toList] := by
    decide +kernel
  exact differ same.1

end Obelus.LocalInference
