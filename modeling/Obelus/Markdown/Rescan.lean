import Obelus.Markdown.Scan

/-!
# Going on from a checkpoint

A scan that goes on from the checkpoint of the push before it ends like one from the
front of the buffer when nothing above the checkpoint can be read differently.  The
start of a line is read with everything that follows it, over blank lines and runs of
fence characters; it is settled once a line break and, before it, a character that is
neither white space nor part of a fence follow.  The limit of the stable part is the
end of such a line, unless that line is blank but for fence characters and has white
space of a kind that the limit does not count as such.
-/

namespace Obelus.Markdown

open Obelus.Data.ListDecide List
open Meetings.Validation (isWhitespace)

/-- A character that ends white space and the run of a fence alike. -/
def isSolid (c : Char) : Bool :=
  !isWhitespace c && c != '`' && c != '~'

/-- Text whose last line is complete and in which some line is more than blank. -/
def Settled (text : List Char) : Prop :=
  text.getLast? = some '\n' ∧ ∃ c ∈ text, isSolid c = true

variable {c : Char} {text line above buffer : List Char} {holds : Char → Bool}
  {reached : ScanCheckpoint} {self : MarkdownBuffer}

theorem isSolid_iff : isSolid c = true ↔ isWhitespace c = false ∧ c ≠ '`' ∧ c ≠ '~' := by
  rw [isSolid]
  simp [and_assoc]

theorem Settled.breaks (settled : Settled text) : '\n' ∈ text :=
  mem_of_getLast? settled.1

theorem takeWhile_append_of_mem (member : c ∈ text) (fails : holds c = false) (more : List Char) :
    (text ++ more).takeWhile holds = text.takeWhile holds := by
  rw [takeWhile_append, if_neg]
  intro whole
  have all := takeWhile_eq_self_iff.mp ((List.takeWhile_prefix holds).eq_of_length whole) c member
  rw [fails] at all
  cases all

theorem dropWhile_append_of_mem (member : c ∈ text) (fails : holds c = false) (more : List Char) :
    (text ++ more).dropWhile holds = text.dropWhile holds ++ more := by
  rw [dropWhile_append, if_neg]
  intro isEmpty
  have all := dropWhile_eq_nil_iff.mp (isEmpty_iff.mp isEmpty) c member
  rw [fails] at all
  cases all

theorem drop_append_takeWhile (holds : Char → Bool) (text more : List Char) :
    (text ++ more).drop (text.takeWhile holds).length =
      text.drop (text.takeWhile holds).length ++ more :=
  drop_append_of_le_length (List.takeWhile_prefix holds).length_le

theorem dropWhile_eq_drop (holds : Char → Bool) (text : List Char) :
    text.dropWhile holds = text.drop (text.takeWhile holds).length := by
  have split := @drop_left _ (text.takeWhile holds) (text.dropWhile holds)
  rw [takeWhile_append_dropWhile] at split
  exact split.symm

theorem getLast?_of_suffix {back : List Char} (isSuffix : back <:+ text)
    (last : text.getLast? = some c) (notEmpty : back ≠ []) : back.getLast? = some c := by
  rcases isSuffix with ⟨front, rfl⟩
  rwa [getLast?_append_of_ne_nil _ notEmpty] at last

theorem mem_dropWhile_of_mem (member : c ∈ text) (fails : holds c = false) :
    c ∈ text.dropWhile holds := by
  rw [← takeWhile_append_dropWhile (p := holds) (l := text), mem_append] at member
  rcases member with inFront | inBack
  · have all := mem_takeWhile_imp inFront
    rw [fails] at all
    cases all
  · exact inBack

/-- The run of the first character that is not white space, and what is behind it. -/
theorem fenceRun_append (settled : Settled line) (more : List Char) : ∃ fenceChar len after,
      fenceRun (line.dropWhile isWhitespace) = some (fenceChar, len, after) ∧
      fenceRun ((line ++ more).dropWhile isWhitespace) = some (fenceChar, len, after ++ more) ∧
      (fenceChar = '`' ∨ fenceChar = '~' → ∃ c ∈ after, isWhitespace c = false) := by
  rcases settled.2 with ⟨solid, isMember, solidHolds⟩
  rcases isSolid_iff.mp solidHolds with ⟨black, notTick, notTilde⟩
  have kept := mem_dropWhile_of_mem isMember black
  rw [dropWhile_append_of_mem isMember black more]
  cases trimmed : line.dropWhile isWhitespace with
  | nil =>
    rw [trimmed] at kept
    cases kept
  | cons fenceChar rest =>
    have notEmpty : line.dropWhile isWhitespace ≠ [] := by
      rw [trimmed]
      exact cons_ne_nil _ _
    have last := getLast?_of_suffix (dropWhile_suffix isWhitespace) settled.1 notEmpty
    have headBlack := head_dropWhile_not isWhitespace notEmpty
    rw [trimmed] at kept last
    simp only [trimmed] at headBlack
    have breakEnds : ('\n' == fenceChar) = false := by
      rw [beq_eq_false_iff_ne]
      rintro rfl
      cases headBlack
    have breakIn := mem_of_getLast? last
    have runEq : ((fenceChar :: rest) ++ more).takeWhile (· == fenceChar) =
        (fenceChar :: rest).takeWhile (· == fenceChar) :=
      takeWhile_append_of_mem breakIn breakEnds more
    have afterEq : ((fenceChar :: rest) ++ more).dropWhile (· == fenceChar) =
        (fenceChar :: rest).dropWhile (· == fenceChar) ++ more :=
      dropWhile_append_of_mem breakIn breakEnds more
    refine ⟨fenceChar, _, _, rfl, ?_, ?_⟩
    · rw [fenceRun, cons_append, head?_cons, Option.map_some, ← cons_append, runEq, afterEq]
    · intro fences
      refine ⟨solid, ?_, black⟩
      have differs : (solid == fenceChar) = false := by
        rw [beq_eq_false_iff_ne]
        rintro rfl
        rcases fences with isTick | isTilde
        · exact notTick isTick
        · exact notTilde isTilde
      exact @mem_dropWhile_of_mem _ _ (· == fenceChar) kept differs

theorem endsFence_append {after : List Char} (isMember : c ∈ after) (black : isWhitespace c = false)
    (more : List Char) : endsFence (after ++ more) = endsFence after := by
  have notAll (back : List Char) : (after ++ back).all isWhitespace = false := by
    rw [all_eq_false]
    exact ⟨c, mem_append_left back isMember, by rw [black]; exact Bool.false_ne_true⟩
  have notAllHere := notAll []
  rw [append_nil] at notAllHere
  rw [endsFence, endsFence, notAll more, notAllHere]
  cases after with
  | nil => cases isMember
  | cons next after => rfl

/-- What is read as a fence in settled text does not depend on what follows. -/
theorem checkCodeFence_append (settled : Settled line) (state : ParseState) (more : List Char) :
    checkCodeFence (line ++ more) state = checkCodeFence line state := by
  rcases fenceRun_append settled more with ⟨fenceChar, len, after, run, longRun, notBlank⟩
  rw [checkCodeFence, checkCodeFence, run, longRun, lineEnd_append settled.breaks more]
  simp only []
  by_cases notFence : fenceChar ≠ '`' ∧ fenceChar ≠ '~'
  · rw [if_pos notFence, if_pos notFence]
  · rcases notBlank (by tauto) with ⟨c, isMember, black⟩
    rw [endsFence_append isMember black more]

theorem startsHeading_append (breaks : '\n' ∈ text) (more : List Char) :
    startsHeading (text ++ more) = startsHeading text := by
  have runEq : (text ++ more).takeWhile (· == '#') = text.takeWhile (· == '#') :=
    takeWhile_append_of_mem breaks (by decide) more
  have behind : '\n' ∈ text.drop (text.takeWhile (· == '#')).length := by
    rw [← dropWhile_eq_drop]
    exact mem_dropWhile_of_mem breaks (by decide)
  rw [startsHeading, startsHeading, runEq, drop_append_takeWhile]
  cases afterIs : text.drop (text.takeWhile (· == '#')).length with
  | nil =>
    rw [afterIs] at behind
    cases behind
  | cons next after => rfl

theorem processLineStart_append (settled : Settled text) (state : ParseState) (more : List Char) :
    processLineStart (text ++ more) state = processLineStart text state := by
  rw [processLineStart, processLineStart, checkCodeFence_append settled,
    startsHeading_append settled.breaks]
  cases text with
  | nil => cases settled.1
  | cons c rest => simp only [cons_append, head?_cons, reduceCtorEq]

theorem scanInline_append (breaks : '\n' ∈ text) (more : List Char) (reached : ScanCheckpoint) :
    scanInline (text ++ more) reached = scanInline text reached := by
  have lineEq : (text ++ more).take (lineEnd (text ++ more)) = text.take (lineEnd text) := by
    rw [lineEnd_append breaks, take_append_of_le_length (lineEnd_le_length text)]
  rw [scanInline, scanInline, lineEq]

/-- A turn that starts in front of settled text does not depend on what follows. -/
theorem scanLine_append (settled : Settled text) (isHere : reached.pos = above.length)
    (more more' : List Char) :
    scanLine (above ++ (text ++ more)) reached = scanLine (above ++ (text ++ more')) reached := by
  rw [scanLine, scanLine, atLineStart_append isHere.le (text ++ more) (text ++ more'), isHere,
    drop_left, drop_left, processLineStart_append settled, processLineStart_append settled,
    lineEnd_append settled.breaks, lineEnd_append settled.breaks]
  simp [scanInline_append settled.breaks]

theorem lastLineStart_break (line rest : List Char) :
    lastLineStart (line ++ '\n' :: rest) = line.length + 1 + lastLineStart rest := by
  rcases exists_lastLine rest with ⟨above, last, rfl, starts, noBreak⟩
  have whole : line ++ '\n' :: (above ++ last) = (line ++ '\n' :: above) ++ last := by
    rw [append_assoc, cons_append]
  rw [whole, lastLineStart_eq _ noBreak, lastLineStart_eq starts noBreak, length_append,
    length_cons]
  · omega
  · rcases starts with rfl | ⟨before, rfl⟩
    · exact Or.inr ⟨line, rfl⟩
    · exact Or.inr ⟨line ++ '\n' :: before, by rw [append_assoc, cons_append]⟩

/-- The complete lines of a text hold nothing that can be read differently. -/
def LinesReinterpretable (text : List Char) : Prop :=
  ∀ c ∈ text.take (lastLineStart text), isReinterpretable c = true

/-- The limit is the front of the buffer, or the end of the last complete line that
cannot be read differently. -/
def LimitedBy (buffer : List Char) (limit : Nat) : Prop :=
  limit = 0 ∨ ∃ above line below, buffer = above ++ (line ++ '\n' :: below) ∧
    limit = (above ++ line).length + 1 ∧ StartsLine above ∧ '\n' ∉ line ∧
    (∃ c ∈ line, isReinterpretable c = false) ∧ LinesReinterpretable below

theorem limitedBy_raiseLimit (fuel : Nat) {below : List Char} (starts : StartsLine above)
    (reinterpretable : LinesReinterpretable below) (enough : above.length ≤ fuel) :
    LimitedBy (above ++ below) (raiseLimit (above ++ below) fuel above.length) := by
  induction fuel generalizing above below with
  | zero =>
    left
    rw [raiseLimit]
    omega
  | succ fuel ih =>
    rw [raiseLimit]
    rcases starts with rfl | ⟨before, rfl⟩
    · exact Or.inl rfl
    · rcases exists_lastLine before with ⟨front, line, rfl, starts, noBreak⟩
      have isEnd : (front ++ line ++ ['\n']).length = (front ++ line).length + 1 := length_append
      have taken : (front ++ line ++ ['\n'] ++ below).take (front ++ line).length =
          front ++ line := by
        rw [append_assoc, take_left]
      have lineIs : (front ++ line ++ ['\n']).drop front.length = line ++ ['\n'] := by
        rw [append_assoc, drop_left]
      have whole : front ++ line ++ ['\n'] ++ below = front ++ (line ++ '\n' :: below) := by
        simp
      rw [if_neg (by rw [isEnd]; exact Nat.succ_ne_zero _), take_left, isEnd,
        Nat.add_sub_cancel, taken, lastLineStart_eq starts noBreak]
      simp only [lineIs]
      split
      · next all =>
        rw [whole]
        rw [isEnd, length_append] at enough
        apply ih starts _ (by omega)
        intro c isMember
        rw [lastLineStart_break, take_append, mem_append] at isMember
        rw [all_eq_true] at all
        rcases isMember with inLine | behind
        · exact all c (mem_append_left _ (mem_of_mem_take inLine))
        · rw [Nat.add_assoc, Nat.add_sub_cancel_left, Nat.add_comm, take_succ_cons,
            mem_cons] at behind
          rcases behind with rfl | later
          · rfl
          · exact reinterpretable c later
      · next notAll =>
        right
        refine ⟨front, line, below, whole, rfl, starts, noBreak, ?_, reinterpretable⟩
        rw [Bool.not_eq_true, all_eq_false] at notAll
        rcases notAll with ⟨c, isMember, fails⟩
        rw [mem_append] at isMember
        rcases isMember with inLine | isBreak
        · exact ⟨c, inLine, by simpa using fails⟩
        · rw [mem_singleton] at isBreak
          subst isBreak
          exact absurd rfl fails

theorem limitedBy_stableScanLimit (buffer : List Char) :
    LimitedBy buffer (stableScanLimit buffer) := by
  rcases exists_lastLine buffer with ⟨above, line, rfl, starts, noBreak⟩
  have lastIs := lastLineStart_eq (Or.inl rfl) noBreak
  rw [nil_append] at lastIs
  rw [stableScanLimit, lastLineStart_eq starts noBreak]
  apply limitedBy_raiseLimit _ starts _ (by rw [length_append]; omega)
  intro c isMember
  rw [lastIs] at isMember
  cases isMember

/-- The last complete line that the limit counts as fixed has a character that ends
white space and fences: no white space but spaces, tabs and line ends makes it count. -/
def StopsAtText (buffer : List Char) : Prop :=
  ∀ above line below, buffer = above ++ (line ++ '\n' :: below) → StartsLine above →
    '\n' ∉ line → LinesReinterpretable below → (∃ c ∈ line, isReinterpretable c = false) →
    ∃ c ∈ line, isSolid c = true

/-- Up to the limit every line start is followed by settled text. -/
theorem settled_of_stopsAtText (stops : StopsAtText buffer) {pos : Nat}
    (starts : atLineStart buffer pos = true) (below : pos < stableScanLimit buffer) :
    ∃ above text rest, buffer = above ++ (text ++ rest) ∧ above.length = pos ∧ Settled text := by
  rcases limitedBy_stableScanLimit buffer with isZero | limited
  · rw [isZero] at below
    cases below
  · rcases limited with ⟨above, line, rest, isBuffer, limitIs, startsLine, noBreak, fixed,
      reinterpretable⟩
    rw [limitIs, length_append] at below
    -- a line start in front of the break is not behind the start of the last line
    have inAbove : pos ≤ above.length := by
      by_contra behind
      rw [atLineStart, Bool.or_eq_true, beq_iff_eq, beq_iff_eq] at starts
      rcases starts with isZero | isBreak
      · omega
      · rw [isBuffer, getElem?_append_right (by omega), getElem?_append_left (by omega)] at isBreak
        exact noBreak (mem_of_getElem? isBreak)
    rcases stops above line rest isBuffer startsLine noBreak reinterpretable fixed with
      ⟨c, isMember, solid⟩
    refine ⟨above.take pos, above.drop pos ++ (line ++ ['\n']), rest, ?_, ?_, ?_, c, ?_, solid⟩
    · rw [isBuffer]
      simp only [append_assoc, cons_append, nil_append]
      rw [← append_assoc (above.take pos), take_append_drop]
    · rw [length_take, min_eq_left inAbove]
    · rw [← append_assoc, getLast?_concat]
    · exact mem_append_right _ (mem_append_left _ isMember)

/-- White space that the limit counts as such. -/
def Plain (c : Char) : Prop :=
  isWhitespace c = true → isReinterpretable c = true

instance : DecidablePred Plain := fun c =>
  inferInstanceAs (Decidable (isWhitespace c = true → isReinterpretable c = true))

theorem stopsAtText_of_plain (plain : ∀ c ∈ buffer, Plain c) : StopsAtText buffer := by
  rintro above line below rfl - - - ⟨c, isMember, fails⟩
  refine ⟨c, isMember, isSolid_iff.mpr ⟨?_, ?_, ?_⟩⟩
  · by_contra white
    have counted := plain c (by simp [isMember]) (by simpa using white)
    rw [fails] at counted
    cases counted
  · rintro rfl
    cases fails
  · rintro rfl
    cases fails

/-- The scan from the front passes the checkpoint, whatever is pushed next. -/
def Sound (self : MarkdownBuffer) : Prop :=
  ∀ more, Passes (self.buffer ++ more) {} self.checkpoint

theorem sound_of_start (buffer : List Char) : Sound { buffer } :=
  fun _ => .refl

/-- The turns up to the limit are the same when more text comes. -/
theorem passes_append (stops : StopsAtText buffer) (passes : Passes buffer {} reached)
    (inLimit : reached.pos ≤ stableScanLimit buffer) (more : List Char) :
    Passes (buffer ++ more) {} reached := by
  induction passes with
  | refl => exact .refl
  | tail before turn ih =>
    next last reached =>
    have advanced := pos_lt_of_turn turn
    have starts : atLineStart buffer last.pos = true := by
      rcases atLineStart_of_passes before (atLineStart_zero buffer) with ended | starts
      · exact absurd turn.1 (Nat.not_lt.mpr ended)
      · exact starts
    rcases settled_of_stopsAtText stops starts (by omega) with
      ⟨above, text, rest, isBuffer, isHere, settled⟩
    apply Relation.ReflTransGen.tail (ih (by omega))
    constructor
    · rw [length_append]
      omega
    · rw [turn.2, isBuffer, append_assoc, append_assoc]
      exact scanLine_append settled isHere.symm rest (rest ++ more)

theorem findSafeEnd_eq_of_passes (passes : Passes self.buffer {} self.checkpoint) :
    (findSafeEnd self).2 = (findSafeEnd { self with checkpoint := {} }).2 := by
  rcases exists_ended self.buffer (stableScanLimit self.buffer) self.buffer.length
    self.checkpoint self.checkpoint (Nat.sub_le _ _) with ⟨ended, onward, isEnded, result⟩
  rcases exists_ended self.buffer (stableScanLimit self.buffer) self.buffer.length
    {} {} (Nat.sub_le _ _) with ⟨fullyEnded, fully, isFullyEnded, fullResult⟩
  rw [findSafeEnd, findSafeEnd, result, fullResult,
    eq_of_passes (passes.trans onward) fully isEnded isFullyEnded]

theorem sound_findSafeEnd (stops : StopsAtText self.buffer) (sound : Sound self) :
    Sound { self with checkpoint := (findSafeEnd self).1 } := by
  intro more
  rcases kept_cases self.buffer (stableScanLimit self.buffer) self.buffer.length self.checkpoint
    self.checkpoint with same | ⟨onward, inLimit, _⟩
  · simp only [findSafeEnd, same]
    exact sound more
  · have passes := sound []
    rw [append_nil] at passes
    exact passes_append stops (passes.trans onward) inLimit more

/-- The checkpoint is reset before a push. -/
def reset (self : MarkdownBuffer) : MarkdownBuffer :=
  { self with checkpoint := {} }

variable (truncation : Truncation)

/-- The fragment that each push returns and the buffer that it keeps; the buffer is
prepared before every push. -/
def pushAll (prepare : MarkdownBuffer → MarkdownBuffer) :
    MarkdownBuffer → List (List Char) → List (Option (List Char) × List Char)
  | _, [] => []
  | self, chunk :: rest =>
    let pushed := push truncation (prepare self) chunk
    (pushed.1, pushed.2.buffer) :: pushAll prepare pushed.2 rest

/-- The buffer of every push has the property when its chunk has been added. -/
def EveryPush (holds : List Char → Prop) : MarkdownBuffer → List (List Char) → Prop
  | _, [] => True
  | self, chunk :: rest =>
    holds (self.buffer ++ chunk) ∧ EveryPush holds (push truncation self chunk).2 rest

/-- A push that goes on from a sound checkpoint returns and keeps what a push without
one does, and its own checkpoint is sound. -/
theorem push_reset (sound : Sound self) (chunk : List Char)
    (stops : StopsAtText (self.buffer ++ chunk)) :
    (push truncation self chunk).1 = (push truncation (reset self) chunk).1 ∧
      (push truncation self chunk).2.buffer = (push truncation (reset self) chunk).2.buffer ∧
      Sound (push truncation self chunk).2 := by
  have grown : Sound (self.grow chunk) := by
    intro more
    have onward := sound (chunk ++ more)
    rwa [← append_assoc] at onward
  have sameEnd : (findSafeEnd (self.grow chunk)).2 = (findSafeEnd ((reset self).grow chunk)).2 :=
    findSafeEnd_eq_of_passes (sound chunk)
  have kept := sound_findSafeEnd stops grown
  by_cases drains : 0 < (findSafeEnd (self.grow chunk)).2
  · have drainsToo := drains
    rw [sameEnd] at drainsToo
    rw [push_of_pos truncation drains, push_of_pos truncation drainsToo, sameEnd]
    exact ⟨rfl, rfl, sound_of_start _⟩
  · have keepsToo := drains
    rw [sameEnd] at keepsToo
    rw [push_of_not_pos truncation drains, push_of_not_pos truncation keepsToo]
    exact ⟨rfl, rfl, kept⟩

theorem pushAll_reset {other : MarkdownBuffer} (sound : Sound self)
    (same : self.buffer = other.buffer) (chunks : List (List Char))
    (stops : EveryPush truncation StopsAtText self chunks) :
    pushAll truncation id self chunks = pushAll truncation reset other chunks := by
  induction chunks generalizing self other with
  | nil => rfl
  | cons chunk rest ih =>
    rcases push_reset truncation sound chunk stops.1 with ⟨fragment, buffer, stillSound⟩
    have others : reset other = reset self := by rw [reset, reset, same]
    rw [pushAll, pushAll, others, id, fragment, buffer]
    congr 1
    exact ih stillSound buffer stops.2

theorem mem_of_mem_push {chunk : List Char} (isMember : c ∈ (push truncation self chunk).2.buffer) :
    c ∈ self.buffer ++ chunk := by
  by_cases drains : 0 < (findSafeEnd (self.grow chunk)).2
  · rw [push_of_pos truncation drains] at isMember
    exact mem_of_mem_drop isMember
  · rw [push_of_not_pos truncation drains] at isMember
    exact isMember

/-- Spaces, tabs and line ends are the only white space in a stream that is read right
whatever else is in it. -/
theorem everyPush_of_plain (kept : ∀ c ∈ self.buffer, Plain c) {chunks : List (List Char)}
    (plain : ∀ chunk ∈ chunks, ∀ c ∈ chunk, Plain c) :
    EveryPush truncation StopsAtText self chunks := by
  induction chunks generalizing self with
  | nil => trivial
  | cons chunk rest ih =>
    rw [forall_mem_cons] at plain
    have all : ∀ c ∈ self.buffer ++ chunk, Plain c := by
      intro c isMember
      rcases mem_append.mp isMember with inBuffer | inChunk
      · exact kept c inBuffer
      · exact plain.1 c inChunk
    refine ⟨stopsAtText_of_plain all, ih ?_ plain.2⟩
    intro c isMember
    exact all c (mem_of_mem_push truncation isMember)

/-- The incremental scan is a full rescan as long as the limit of the stable part is the
end of a line that is more than white space and fences. -/
theorem incremental_eq_rescan (chunks : List (List Char))
    (stops : EveryPush truncation StopsAtText {} chunks) :
    pushAll truncation id {} chunks = pushAll truncation reset {} chunks :=
  pushAll_reset truncation (sound_of_start []) rfl chunks stops

theorem incremental_eq_rescan_splitFence :
    pushAll noTruncation id {} ["**a\n\n`".toList, "``\nb**".toList, "\n```\n".toList] =
      pushAll noTruncation reset {} ["**a\n\n`".toList, "``\nb**".toList, "\n```\n".toList] :=
  incremental_eq_rescan noTruncation _
    (everyPush_of_plain noTruncation (by decide) (by decide +kernel))

/-- A line with nothing but an ideographic space is blank for a fence behind it, and not
for the limit. -/
theorem not_incremental_eq_rescan_ideographicSpace :
    ¬∀ (truncation : Truncation) (chunks : List (List Char)),
      pushAll truncation id {} chunks = pushAll truncation reset {} chunks := by
  intro always
  have here := always noTruncation ["**a\n\u3000\n`".toList, "``\nb**".toList]
  revert here
  decide +kernel

end Obelus.Markdown
