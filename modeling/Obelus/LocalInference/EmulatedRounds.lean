import Obelus.LocalInference.EmulatedText

/-!
# Rounds of the emulation

A round of the loop follows the reading of the text where it takes the right turn: it does
not open a block before a command, nor at a fence whose line goes on, and it takes a dollar
sign at the begin of its buffer for a command exactly where a line begins.
-/

namespace Obelus.LocalInference

open List
open Obelus.Data (splitOnce NoneBegins splitOnce_eq_some_iff splitOnce_eq_none_iff splitOnce_append)
open StreamingEmulatorParser (holdBack iterateInCommand iterateInExecuteBlock iterateNormal
  iterateShell)

def readState (codeMode lineStart : Bool) : ParserState → List Char → List Piece
  | .normal => readText codeMode lineStart
  | .inCommand => readCommand codeMode
  | .inExecuteBlock => readBlock codeMode

def Iteration.results : Iteration → List EmulatorAction
  | .continues results _ => results
  | .breaks results _ => results

def Iteration.parser : Iteration → StreamingEmulatorParser
  | .continues _ parser => parser
  | .breaks _ parser => parser

variable (lineStart : Bool) (before : List Piece) (later : List Char) (chunkLength : Nat)

/-- A dollar sign at the begin of the buffer is a command where a line begins. -/
def rightShell (parser : StreamingEmulatorParser) : Bool :=
  match splitOnce ['\n', '$'] parser.buffer with
  | some (beforeDollar, fromDollar) =>
    !(lineStart && parser.buffer.head? == some '$') &&
      dropsAtEdge before (beforeDollar ++ ['\n'])
        (readCommand parser.codeModeEnabled (('$' :: fromDollar) ++ later))
  | none =>
    parser.buffer.head? != some '$' || lineStart == (utf8Length parser.buffer == chunkLength)

/-- A block opens before every command of the buffer, and at a bare fence only where the text
ends.  What is left out of the text, behind the pieces before, stands at the end of a text. -/
def rightTurn (parser : StreamingEmulatorParser) : Bool :=
  match parser.state with
  | .normal =>
    if parser.codeModeEnabled then
      match splitOnce fence parser.buffer with
      | some (beforeFence, after) =>
        noDollarLine lineStart beforeFence &&
          dropsAtEdge before beforeFence (readBlock true (after ++ later))
      | none =>
        if bareFence <:+ parser.buffer then
          let beforeFence := parser.buffer.take (parser.buffer.length - bareFence.length)
          later.isEmpty && !decide (bareFence <:+ beforeFence) &&
            noDollarLine lineStart beforeFence
        else rightShell lineStart before later chunkLength parser
    else rightShell lineStart before later chunkLength parser
  | .inExecuteBlock =>
    match splitOnce closingFence parser.buffer with
    | some (code, after) =>
      after.head? != some '\n' || atEdge (before ++ piecesOf (closedCode code))
        (readText parser.codeModeEnabled true (stripLineFeed after ++ later))
    | none => true
  | .inCommand => true

/-- The round shows what it takes off the buffer, behind the pieces before, as the text is
read. -/
structure Follows (consumed : List Char) (parser : StreamingEmulatorParser) (round : Iteration) :
    Prop where
  buffer : parser.buffer = consumed ++ round.parser.buffer
  codeMode : round.parser.codeModeEnabled = parser.codeModeEnabled
  reads :
    shown (before ++
        readState parser.codeModeEnabled lineStart parser.state (parser.buffer ++ later)) =
      shown (before ++ (piecesOf round.results ++
        readState parser.codeModeEnabled (endsLine lineStart consumed) round.parser.state
          (round.parser.buffer ++ later)))
  command : round.parser.state = .inCommand →
    endsLine lineStart consumed = true ∧ round.parser.buffer.head? = some '$'

/-- What is left in the buffer is a command or a block that is not closed, or text that holds no
command and no fence. -/
def Settled (lineStart : Bool) (parser : StreamingEmulatorParser) : Prop :=
  match parser.state with
  | .normal => noDollarLine lineStart parser.buffer ∧
      (parser.codeModeEnabled = true →
        NoneBegins fence parser.buffer [] ∧ ¬bareFence <:+ parser.buffer)
  | .inCommand => splitOnce ['\n'] parser.buffer = none
  | .inExecuteBlock => splitOnce closingFence parser.buffer = none

variable {lineStart : Bool} {before : List Piece} {later : List Char} {chunkLength : Nat}
  {parser : StreamingEmulatorParser}

theorem follows_iterateInCommand (inState : parser.state = .inCommand)
    (command : lineStart = true ∧ parser.buffer.head? = some '$') :
    ∃ consumed, Follows lineStart before later consumed parser parser.iterateInCommand := by
  rw [iterateInCommand]
  cases found : splitOnce ['\n'] parser.buffer with
  | none =>
    exact ⟨[], rfl, rfl, rfl, fun _ => command⟩
  | some parts =>
    obtain ⟨line, rest⟩ := parts
    have isBuffer := (splitOnce_eq_some_iff.mp found).1
    refine ⟨line ++ ['\n'], by simpa [Iteration.parser] using isBuffer, rfl, ?_, fun isCommand => by
      cases isCommand⟩
    simp only [inState, readState, readCommand, splitOnce_append found, endsLine_append]
    rfl

variable {text consumed : List Char} {codeMode : Bool} {results : List EmulatorAction}

theorem readBlock_of_found (codeMode : Bool) {code after : List Char}
    (found : splitOnce closingFence text = some (code, after)) (later : List Char) :
    readBlock codeMode (text ++ later) =
      piecesOf (closedCode code) ++ readText codeMode false (after ++ later) := by
  rw [readBlock, splitOnce_append found]

theorem endsLine_closingFence (lineStart : Bool) (code : List Char) :
    endsLine lineStart (code ++ closingFence) = false := by
  rw [endsLine_append]
  rfl

theorem follows_iterateInExecuteBlock (inState : parser.state = .inExecuteBlock)
    (right : rightTurn lineStart before later chunkLength parser) :
    ∃ consumed, Follows lineStart before later consumed parser parser.iterateInExecuteBlock := by
  rw [rightTurn, inState] at right
  rw [iterateInExecuteBlock]
  cases found : splitOnce closingFence parser.buffer with
  | none =>
    refine ⟨[], rfl, rfl, rfl, fun isCommand => ?_⟩
    rw [Iteration.parser, inState] at isCommand
    cases isCommand
  | some parts =>
    obtain ⟨code, after⟩ := parts
    have isBuffer := (splitOnce_eq_some_iff.mp found).1
    have reads := readBlock_of_found parser.codeModeEnabled found later
    obtain isRest | isRest := stripLineFeed_cases after
    · refine ⟨code ++ closingFence, ?_, rfl, ?_, fun isCommand => by cases isCommand⟩
      · rw [isRest] at isBuffer
        rw [isBuffer, append_assoc]
        rfl
      · simp only [inState, readState]
        rw [reads, endsLine_closingFence]
        simp only [← isRest]
        rfl
    · refine ⟨code ++ closingFence ++ ['\n'], ?_, rfl, ?_, fun isCommand => by cases isCommand⟩
      · rw [isRest] at isBuffer
        rw [isBuffer, append_assoc, append_assoc]
        rfl
      · -- the line feed behind the fence is left out
        have edge : atEdge (before ++ piecesOf (closedCode code))
            (readText parser.codeModeEnabled true (stripLineFeed after ++ later)) := by
          have isHead : after.head? = some '\n' := by rw [isRest, head?_cons]
          simpa [found, isHead] using right
        rw [isRest] at reads
        simp only [inState, readState]
        rw [reads, cons_append, readText_lineFeed, endsLine_append, ← append_assoc,
          shown_drop (forall_mem_singleton.mpr rfl) edge, append_assoc]
        rfl

theorem notMem_fence : '$' ∉ fence := by
  decide

theorem notMem_bareFence : '$' ∉ bareFence := by
  decide

/-- A fence in more text does not begin in a buffer without one, before an end that holds a
dollar sign or is as long as a fence. -/
theorem noFence_of_far {first second : List Char}
    (noFence : codeMode = true → NoneBegins fence (first ++ second) [])
    (far : codeMode = true → 22 ≤ second.length ∨ '$' ∈ second) (later : List Char) :
    NoFence codeMode first (second ++ later) := by
  intro isCodeMode
  have isFar := far isCodeMode
  refine ⟨(noFence isCodeMode).extend ?_ later, ?_⟩
  · have length : fence.length = 22 := by decide
    obtain isLong | holdsDollar := isFar
    · exact .inl (by omega)
    · exact .inr ⟨'$', holdsDollar, notMem_fence⟩
  · rintro front back - notEmpty isBare
    obtain isLong | holdsDollar := isFar
    · have lengths := congrArg length isBare
      have length : bareFence.length = 21 := by decide
      simp only [length_append] at lengths
      omega
    · refine notMem_bareFence ?_
      rw [← isBare]
      exact mem_append_right _ (mem_append_left _ holdsDollar)

/-- A buffer that is kept whole, or whose end is held back. -/
theorem holdBack_cases (parser : StreamingEmulatorParser) : parser.holdBack = .breaks [] parser ∨
      ∃ emitted kept, parser.buffer = emitted ++ kept ∧
        (parser.codeModeEnabled = true → 22 ≤ kept.length) ∧
        parser.holdBack =
          .breaks [.text (String.ofList emitted)] { parser with buffer := kept } := by
  simp only [holdBack]
  generalize isCount :
    (if parser.codeModeEnabled then holdBackCodeMode else holdBackShellOnly) = count
  split
  · next long =>
    refine .inr ⟨_, _, (take_append_drop _ _).symm, ?_, rfl⟩
    intro isCodeMode
    rw [isCodeMode, if_pos rfl, holdBackCodeMode] at isCount
    rw [Bool.and_eq_true, decide_eq_true_iff] at long
    rw [length_drop]
    omega
  · exact .inl rfl

theorem charPieces_eq_readText (noDollar : noDollarLine lineStart text)
    (noFence : codeMode = true → NoneBegins fence text [] ∧ ¬bareFence <:+ text) :
    readText codeMode lineStart text = charPieces text := by
  have plain : NoFence codeMode text [] := by
    intro isCodeMode
    refine ⟨(noFence isCodeMode).1, ?_⟩
    rintro front back isText - isBare
    refine (noFence isCodeMode).2 ⟨front, ?_⟩
    rw [isText, ← isBare, append_nil]
  have reads := readText_append noDollar plain
  rwa [readText_nil, append_nil, append_nil] at reads

theorem noDollarLine_buffer (found : splitOnce ['\n', '$'] parser.buffer = none)
    (notTaken : ¬(parser.buffer.head? = some '$' ∧ utf8Length parser.buffer = chunkLength))
    (right : rightShell lineStart before later chunkLength parser) :
    noDollarLine lineStart parser.buffer := by
  have none : NoneBegins ['\n', '$'] parser.buffer [] :=
    (splitOnce_eq_none_iff (cons_ne_nil _ _)).mp found
  refine noDollarLine_of_noneBegins none ?_
  intro isStart isDollar
  refine notTaken ⟨isDollar, ?_⟩
  simpa [rightShell, found, isDollar, isStart] using right

/-- Without a fence in the buffer: a command after plain text, or at the begin of the buffer, or
plain text alone. -/
theorem follows_iterateShell (inState : parser.state = .normal)
    (noFence : parser.codeModeEnabled = true → NoneBegins fence parser.buffer [])
    (right : rightShell lineStart before later chunkLength parser) :
    ∃ consumed,
      Follows lineStart before later consumed parser (parser.iterateShell chunkLength) := by
  rw [iterateShell]
  cases found : splitOnce ['\n', '$'] parser.buffer with
  | some parts =>
    obtain ⟨beforeDollar, fromDollar⟩ := parts
    obtain ⟨isBuffer, none⟩ := splitOnce_eq_some_iff.mp found
    have isParts : parser.buffer = (beforeDollar ++ ['\n']) ++ '$' :: fromDollar := by
      rw [isBuffer]
      simp
    have head : lineStart = true → beforeDollar.head? ≠ some '$' := by
      intro isStart isDollar
      have isHead : parser.buffer.head? = some '$' := by
        rw [isBuffer, head?_append, isDollar]
        rfl
      simp [rightShell, found, isStart, isHead] at right
    have drops : dropsAtEdge before (beforeDollar ++ ['\n'])
        (readCommand parser.codeModeEnabled (('$' :: fromDollar) ++ later)) := by
      rw [rightShell, found] at right
      exact (Bool.and_eq_true_iff.mp right).2
    have noDollar : noDollarLine lineStart (beforeDollar ++ ['\n']) := by
      rw [noDollarLine_append, noDollarLine_of_noneBegins none head]
      simp [noDollarLine]
    have plain : NoFence parser.codeModeEnabled (beforeDollar ++ ['\n'])
        (('$' :: fromDollar) ++ later) := by
      rw [isParts] at noFence
      exact noFence_of_far noFence (fun _ => .inr (mem_cons_self)) later
    have ends : endsLine lineStart (beforeDollar ++ ['\n']) = true := by
      rw [endsLine_append]
      rfl
    refine ⟨beforeDollar ++ ['\n'], isParts, rfl, ?_, fun _ => ⟨ends, rfl⟩⟩
    rw [inState]
    simp only [readState]
    rw [isParts, append_assoc, readText_append noDollar plain, ends, cons_append, readText_dollar]
    exact shown_textUnlessBlank drops
  | none =>
    dsimp only
    split
    · next taken =>
      obtain ⟨rest, isBuffer⟩ : ∃ rest, parser.buffer = '$' :: rest := by
        cases isBuffer : parser.buffer with
        | nil => simp [isBuffer] at taken
        | cons c rest =>
          refine ⟨rest, ?_⟩
          simpa [isBuffer] using taken.1
      have isStart : lineStart = true := by
        simpa [rightShell, found, taken.1, taken.2] using right
      refine ⟨[], rfl, rfl, ?_, fun _ => ⟨isStart, taken.1⟩⟩
      rw [inState, isStart]
      simp only [readState]
      rw [isBuffer, cons_append, readText_dollar]
      simp [Iteration.results, Iteration.parser]
    · next notTaken =>
      obtain kept | ⟨emitted, kept, isBuffer, isLong, isHeld⟩ := holdBack_cases parser
      · rw [kept]
        refine ⟨[], rfl, rfl, rfl, fun isCommand => ?_⟩
        rw [Iteration.parser, inState] at isCommand
        cases isCommand
      · have noDollar : noDollarLine lineStart emitted := by
          have all := noDollarLine_buffer found notTaken right
          rw [isBuffer, noDollarLine_append, Bool.and_eq_true] at all
          exact all.1
        have plain : NoFence parser.codeModeEnabled emitted (kept ++ later) := by
          rw [isBuffer] at noFence
          exact noFence_of_far noFence (fun isCodeMode => .inl (isLong isCodeMode)) later
        rw [isHeld]
        refine ⟨emitted, isBuffer, rfl, ?_, fun isCommand => ?_⟩
        · simp only [inState, readState, Iteration.results, Iteration.parser, piecesOf_text]
          rw [isBuffer, append_assoc, readText_append noDollar plain]
        · rw [inState] at isCommand
          cases isCommand

theorem trimEndMatches_once {pattern before : List Char} (once : ¬pattern <:+ before)
    {fuel : Nat} (enough : 0 < fuel) :
    trimEndMatches pattern fuel (before ++ pattern) = before := by
  have isBefore : (before ++ pattern).take ((before ++ pattern).length - pattern.length) =
      before := by
    rw [length_append, Nat.add_sub_cancel, take_left]
  cases fuel with
  | zero => omega
  | succ fuel =>
    rw [trimEndMatches, if_pos (suffix_append _ _), isBefore]
    cases fuel with
    | zero => rfl
    | succ fuel => rw [trimEndMatches, if_neg once]

/-- A block opens behind the plain text before a fence. -/
theorem follows_iterateNormal (inState : parser.state = .normal)
    (right : rightTurn lineStart before later chunkLength parser) :
    ∃ consumed,
      Follows lineStart before later consumed parser (parser.iterateNormal chunkLength) := by
  rw [iterateNormal]
  rw [rightTurn, inState] at right
  split
  · next isCodeMode =>
    simp only [isCodeMode] at right
    cases found : splitOnce fence parser.buffer with
    | some parts =>
      obtain ⟨beforeFence, after⟩ := parts
      obtain ⟨isBuffer, none⟩ := splitOnce_eq_some_iff.mp (splitOnce_append found later)
      have plain : NoFence parser.codeModeEnabled beforeFence (fence ++ (after ++ later)) := by
        refine fun _ => ⟨none, ?_⟩
        rintro front back - notEmpty isBare
        have lengths := congrArg length isBare
        have length : fence.length = 22 ∧ bareFence.length = 21 := by decide
        simp only [length_append] at lengths
        omega
      obtain ⟨noDollar, drops⟩ : noDollarLine lineStart beforeFence ∧
          dropsAtEdge before beforeFence (readBlock true (after ++ later)) := by
        simpa [found] using right
      refine ⟨beforeFence ++ fence, ?_, rfl, ?_, fun isCommand => by cases isCommand⟩
      · rw [(splitOnce_eq_some_iff.mp found).1, ← append_assoc]
        rfl
      · rw [inState]
        simp only [readState]
        rw [isBuffer, readText_append noDollar plain, isCodeMode, readText_fence]
        exact shown_textUnlessBlank drops
    | none =>
      have noFence : NoneBegins fence parser.buffer [] :=
        (splitOnce_eq_none_iff (by decide)).mp found
      dsimp only
      split
      · next ends =>
        obtain ⟨beforeFence, isBuffer⟩ := id ends
        have isTaken : parser.buffer.take (parser.buffer.length - bareFence.length) =
            beforeFence := by
          rw [← isBuffer, length_append, Nat.add_sub_cancel, take_left]
        obtain ⟨⟨isEnd, once⟩, noDollar⟩ :
            (later = [] ∧ ¬bareFence <:+ beforeFence) ∧ noDollarLine lineStart beforeFence := by
          simpa [found, isTaken, ends] using right
        have plain : NoFence parser.codeModeEnabled beforeFence bareFence := by
          rw [← isBuffer] at noFence
          refine fun _ => ⟨by simpa using noFence.left, ?_⟩
          rintro front back - notEmpty isBare
          have lengths := congrArg length isBare
          have isLong := length_pos_iff.mpr notEmpty
          rw [length_append] at lengths
          omega
        have isTrimmed : trimEndMatches bareFence parser.buffer.length parser.buffer =
            beforeFence := by
          have enough : 0 < parser.buffer.length := by
            rw [← isBuffer, length_append]
            exact Nat.lt_add_left _ (by decide)
          have trimmed := trimEndMatches_once once enough
          rwa [isBuffer] at trimmed
        refine ⟨parser.buffer, (append_nil _).symm, rfl, ?_, fun isCommand => by
          cases isCommand⟩
        -- nothing follows, so that a blank text before the fence is at the end
        have drops : dropsAtEdge before beforeFence [] := by
          simp [dropsAtEdge, atEdge, beginsBlank]
        rw [inState, isEnd, isTrimmed]
        simp only [readState, append_nil]
        rw [← isBuffer, readText_append noDollar plain, isCodeMode, readText_bareFence]
        exact shown_textUnlessBlank drops
      · next notBare =>
        refine follows_iterateShell inState (fun _ => noFence) ?_
        simpa [found, notBare] using right
  · next notCodeMode =>
    refine follows_iterateShell inState (fun isCodeMode => absurd isCodeMode notCodeMode) ?_
    simpa [notCodeMode] using right

/-- Every round that takes the right turn follows the reading. -/
theorem follows_iterate
    (command : parser.state = .inCommand → lineStart = true ∧ parser.buffer.head? = some '$')
    (right : rightTurn lineStart before later chunkLength parser) :
    ∃ consumed, Follows lineStart before later consumed parser (parser.iterate chunkLength) := by
  rw [StreamingEmulatorParser.iterate]
  split
  · next inState => exact follows_iterateInCommand inState (command inState)
  · next inState => exact follows_iterateInExecuteBlock inState right
  · next inState => exact follows_iterateNormal inState right

/-- Every round that goes on leaves less to do. -/
def toDo (parser : StreamingEmulatorParser) : Nat :=
  2 * parser.buffer.length + if parser.state = .normal then 1 else 0

theorem continues_holdBack_ne {next : StreamingEmulatorParser} :
    parser.holdBack ≠ .continues results next := by
  obtain kept | ⟨_, _, _, _, isHeld⟩ := holdBack_cases parser
  · rw [kept]
    rintro ⟨⟩
  · rw [isHeld]
    rintro ⟨⟩

theorem toDo_iterateShell {next : StreamingEmulatorParser} (inState : parser.state = .normal)
    (continues : parser.iterateShell chunkLength = .continues results next) :
    toDo next < toDo parser := by
  rw [iterateShell] at continues
  split at continues
  · next found =>
    cases continues
    have length := length_splitOnce found
    simp only [length_cons] at length
    simp [toDo, inState]
    omega
  · split at continues
    · cases continues
      simp [toDo, inState]
    · exact absurd continues continues_holdBack_ne

theorem toDo_iterate {next : StreamingEmulatorParser}
    (continues : parser.iterate chunkLength = .continues results next) :
    toDo next < toDo parser := by
  rw [StreamingEmulatorParser.iterate] at continues
  split at continues
  · next inState =>
    rw [iterateInCommand] at continues
    split at continues
    · next found =>
      cases continues
      have length := length_splitOnce found
      simp only [length_cons] at length
      simp [toDo, inState]
      omega
    · cases continues
  · next inState =>
    rw [iterateInExecuteBlock] at continues
    split at continues
    · next code after found =>
      cases continues
      have length := length_splitOnce found
      have closing : closingFence.length = 4 := by decide
      have strips : (stripLineFeed after).length ≤ after.length := by
        obtain isRest | isRest := stripLineFeed_cases after
        · rw [← isRest]
        · conv_rhs => rw [isRest]
          exact Nat.le_succ _
      simp [toDo, inState]
      omega
    · cases continues
  · next inState =>
    rw [iterateNormal] at continues
    split at continues
    · split at continues
      · next found =>
        cases continues
        have length := length_splitOnce found
        simp [toDo, inState]
        omega
      · split at continues
        · cases continues
          simp [toDo, inState]
        · exact toDo_iterateShell inState continues
    · exact toDo_iterateShell inState continues

theorem state_of_breaks_holdBack {next : StreamingEmulatorParser}
    (breaks : parser.holdBack = .breaks results next) :
    next.state = parser.state ∧ next.codeModeEnabled = parser.codeModeEnabled := by
  obtain kept | ⟨_, _, _, _, isHeld⟩ := holdBack_cases parser
  · rw [kept] at breaks
    cases breaks
    exact ⟨rfl, rfl⟩
  · rw [isHeld] at breaks
    cases breaks
    exact ⟨rfl, rfl⟩

theorem settled_iterateShell {next : StreamingEmulatorParser} (inState : parser.state = .normal)
    (noFence : parser.codeModeEnabled = true →
      NoneBegins fence parser.buffer [] ∧ ¬bareFence <:+ parser.buffer)
    (right : rightShell lineStart before later chunkLength parser)
    (breaks : parser.iterateShell chunkLength = .breaks results next)
    (isBuffer : parser.buffer = consumed ++ next.buffer) :
    Settled (endsLine lineStart consumed) next := by
  rw [iterateShell] at breaks
  split at breaks
  · cases breaks
  · next found =>
    split at breaks
    · cases breaks
    · next notTaken =>
      have all := noDollarLine_buffer found notTaken right
      rw [isBuffer, noDollarLine_append, Bool.and_eq_true] at all
      obtain ⟨isState, isMode⟩ := state_of_breaks_holdBack breaks
      rw [Settled, isState, inState]
      refine ⟨all.2, fun isCodeMode => ?_⟩
      rw [isMode] at isCodeMode
      obtain ⟨none, notBare⟩ := noFence isCodeMode
      rw [isBuffer] at none notBare
      exact ⟨none.right, fun ends => notBare (ends.trans (suffix_append _ _))⟩

/-- A round that breaks leaves a command or a block that is not closed, or plain text. -/
theorem settled_iterate {next : StreamingEmulatorParser}
    (right : rightTurn lineStart before later chunkLength parser)
    (breaks : parser.iterate chunkLength = .breaks results next)
    (isBuffer : parser.buffer = consumed ++ next.buffer) :
    Settled (endsLine lineStart consumed) next := by
  rw [StreamingEmulatorParser.iterate] at breaks
  split at breaks
  · next inState =>
    rw [iterateInCommand] at breaks
    split at breaks
    · cases breaks
    · next found =>
      cases breaks
      rw [Settled, inState]
      exact found
  · next inState =>
    rw [iterateInExecuteBlock] at breaks
    split at breaks
    · cases breaks
    · next found =>
      cases breaks
      rw [Settled, inState]
      exact found
  · next inState =>
    rw [iterateNormal] at breaks
    rw [rightTurn, inState] at right
    split at breaks
    · next isCodeMode =>
      split at breaks
      · cases breaks
      · next found =>
        have none : NoneBegins fence parser.buffer [] :=
          (splitOnce_eq_none_iff (by decide)).mp found
        split at breaks
        · cases breaks
        · next notBare =>
          have rightShell : rightShell lineStart before later chunkLength parser := by
            simpa [isCodeMode, found, notBare] using right
          exact settled_iterateShell inState (fun _ => ⟨none, notBare⟩) rightShell breaks isBuffer
    · next notCodeMode =>
      have rightShell : rightShell lineStart before later chunkLength parser := by
        simpa [notCodeMode] using right
      exact settled_iterateShell inState (fun isCodeMode => absurd isCodeMode notCodeMode)
        rightShell breaks isBuffer

end Obelus.LocalInference
