import Obelus.Formats.ThinkTags

/-!
# Filtering thinking out of a stream

The filter reads a text in chunks, takes the think tags out, and sends what
stands between them to the content or to the thinking.  What may still become a
tag is held back.  The chunks make no difference as long as nothing is let go that
the text behind the cut makes a tag of.
-/

namespace Obelus.Formats

open Obelus.Data.ListDecide List

/-! ## The filter -/

structure FilterOut where
  content : List Char := []
  thinking : List Char := []
  deriving DecidableEq

/-- First the one, then the other. -/
def FilterOut.followedBy (first second : FilterOut) : FilterOut where
  content := first.content ++ second.content
  thinking := first.thinking ++ second.thinking

structure ThinkFilter where
  buffer : List Char := []
  insideThink : Bool := false
  thinkDepth : Nat := 0
  deriving DecidableEq

/-- An event with the text before it.  A tag comes with the text behind it, and a text
that is held back with itself. -/
inductive BufferEvent
  | tag (before : List Char) (kind : ThinkTag) (after : List Char)
  | held (before suffix : List Char)
  deriving DecidableEq

def BufferEvent.behind (c : Char) : BufferEvent → BufferEvent
  | .tag before kind after => .tag (c :: before) kind after
  | .held before suffix => .held (c :: before) suffix

/-- The event at the front of the text. -/
def eventHere (insideThink : Bool) (suffix : List Char) : Option BufferEvent :=
  match parseThinkTag suffix with
  | some (kind, after) =>
    if insideThink || kind ≠ .closing then some (.tag [] kind after) else none
  | none => if isPossiblePartialThinkTag suffix then some (.held [] suffix) else none

/-- The loop of `next_buffer_event` from a place of the buffer on. -/
def nextBufferEvent (insideThink : Bool) : List Char → Option BufferEvent
  | [] => none
  | c :: rest =>
    match eventHere insideThink (c :: rest) with
    | some event => some event
    | none => (nextBufferEvent insideThink rest).map (BufferEvent.behind c)

def emit (insideThink : Bool) (text : List Char) : FilterOut :=
  if insideThink then { thinking := text } else { content := text }

namespace ThinkFilter

/-- The filter behind a tag. -/
def afterTag (filter : ThinkFilter) (kind : ThinkTag) (after : List Char) : ThinkFilter :=
  match kind with
  | .opening => ⟨after, true, filter.thinkDepth + 1⟩
  | .closing => ⟨after, 0 < filter.thinkDepth - 1, filter.thinkDepth - 1⟩
  | .selfClosing => { filter with buffer := after }

/-- The loop of `process_buffer`, which takes a tag from the buffer in every round but
the last. -/
def processLoop : Nat → ThinkFilter → ThinkFilter × FilterOut
  | 0, filter => (filter, {})
  | rounds + 1, filter =>
    match nextBufferEvent filter.insideThink filter.buffer with
    | some (.tag before kind after) =>
      let rest := processLoop rounds (filter.afterTag kind after)
      (rest.1, (emit filter.insideThink before).followedBy rest.2)
    | some (.held before suffix) =>
      ({ filter with buffer := suffix }, emit filter.insideThink before)
    | none => ({ filter with buffer := [] }, emit filter.insideThink filter.buffer)

def processBuffer (filter : ThinkFilter) : ThinkFilter × FilterOut :=
  processLoop (filter.buffer.length + 1) filter

def append (filter : ThinkFilter) (chunk : List Char) : ThinkFilter :=
  { filter with buffer := filter.buffer ++ chunk }

def push (filter : ThinkFilter) (chunk : List Char) : ThinkFilter × FilterOut :=
  (filter.append chunk).processBuffer

def finish (filter : ThinkFilter) : FilterOut :=
  let processed := filter.processBuffer
  processed.2.followedBy (emit processed.1.insideThink processed.1.buffer)

/-- What the filter makes of the chunks and of their end. -/
def filterChunks (filter : ThinkFilter) : List (List Char) → FilterOut
  | [] => filter.finish
  | chunk :: rest =>
    let pushed := filter.push chunk
    pushed.2.followedBy (pushed.1.filterChunks rest)

end ThinkFilter

def splitThinkBlocks (text : List Char) : FilterOut :=
  let pushed := ThinkFilter.push {} text
  pushed.2.followedBy pushed.1.finish

example : splitThinkBlocks "<think>x</think>y".toList = ⟨['y'], ['x']⟩ := by
  decide +kernel

/-! ## Outputs -/

namespace FilterOut

variable (out : FilterOut)

@[simp]
theorem nil_followedBy : FilterOut.followedBy {} out = out := rfl

@[simp]
theorem followedBy_nil : out.followedBy {} = out := by
  simp [followedBy]

theorem followedBy_assoc (first second third : FilterOut) :
    (first.followedBy second).followedBy third = first.followedBy (second.followedBy third) := by
  simp [followedBy]

end FilterOut

@[simp]
theorem emit_nil (insideThink : Bool) : emit insideThink [] = {} := by
  cases insideThink <;> rfl

theorem emit_append (insideThink : Bool) (first second : List Char) :
    emit insideThink (first ++ second) =
      (emit insideThink first).followedBy (emit insideThink second) := by
  cases insideThink <;> rfl

theorem emit_cons (insideThink : Bool) (c : Char) (rest : List Char) :
    emit insideThink (c :: rest) =
      (emit insideThink [c]).followedBy (emit insideThink rest) :=
  emit_append insideThink [c] rest

/-! ## Events -/

variable {insideThink : Bool} {suffix buffer before after : List Char} {kind : ThinkTag}

theorem eventHere_cases {event : BufferEvent} (here : eventHere insideThink suffix = some event) :
    (∃ kind after, parseThinkTag suffix = some (kind, after) ∧ event = .tag [] kind after ∧
        (insideThink = true ∨ kind ≠ .closing)) ∨
      (parseThinkTag suffix = none ∧ isPossiblePartialThinkTag suffix = true ∧
        event = .held [] suffix) := by
  unfold eventHere at here
  cases parses : parseThinkTag suffix with
  | some found =>
    obtain ⟨kind, after⟩ := found
    rw [parses] at here
    left
    simp only [Bool.or_eq_true, decide_eq_true_eq] at here
    split at here
    · next counts => exact ⟨kind, after, rfl, (Option.some.inj here).symm, counts⟩
    · cases here
  | none =>
    rw [parses] at here
    right
    simp only at here
    split at here
    · next held => exact ⟨rfl, held, (Option.some.inj here).symm⟩
    · cases here

/-- The text before an event, and the event behind it. -/
theorem nextBufferEvent_cases (insideThink : Bool) (buffer : List Char) :
    nextBufferEvent insideThink buffer = none ∨
      (∃ before kind after tag, tag ≠ [] ∧ buffer = before ++ (tag ++ after) ∧
        (∀ more, parseThinkTag (tag ++ more) = some (kind, more)) ∧
        nextBufferEvent insideThink buffer = some (.tag before kind after)) ∨
      ∃ before suffix, buffer = before ++ suffix ∧
        nextBufferEvent insideThink buffer = some (.held before suffix) := by
  induction buffer with
  | nil => exact Or.inl rfl
  | cons c rest ih =>
    rw [nextBufferEvent]
    cases here : eventHere insideThink (c :: rest) with
    | some event =>
      right
      rcases eventHere_cases here with ⟨kind, after, parses, rfl, -⟩ | ⟨-, -, rfl⟩
      · obtain ⟨tag, nonempty, equal, found⟩ := exists_of_parses parses
        exact Or.inl ⟨[], kind, after, tag, nonempty, equal, found, rfl⟩
      · exact Or.inr ⟨[], c :: rest, rfl, rfl⟩
    | none =>
      rcases ih with next | ⟨before, kind, after, tag, nonempty, equal, found, next⟩ |
        ⟨before, suffix, equal, next⟩
      · exact Or.inl (by rw [next]; rfl)
      · refine Or.inr (Or.inl ⟨c :: before, kind, after, tag, nonempty, ?_, found, ?_⟩)
        · rw [equal, cons_append]
        · rw [next]
          rfl
      · refine Or.inr (Or.inr ⟨c :: before, suffix, ?_, ?_⟩)
        · rw [equal, cons_append]
        · rw [next]
          rfl

theorem length_after_lt (next : nextBufferEvent insideThink buffer = some (.tag before kind after))
    : after.length < buffer.length := by
  rcases nextBufferEvent_cases insideThink buffer with
    none | ⟨_, _, _, tag, nonempty, rfl, -, found⟩ | ⟨_, _, -, held⟩
  · rw [next] at none
    cases none
  · rw [next] at found
    cases found
    have some := length_pos_iff.mpr nonempty
    simp only [length_append]
    omega
  · rw [next] at held
    cases held

/-! ## Rounds -/

namespace ThinkFilter

variable (filter : ThinkFilter)

@[simp]
theorem afterTag_buffer (kind : ThinkTag) (after : List Char) :
    (filter.afterTag kind after).buffer = after := by
  cases kind <;> rfl

/-- Rounds that are not needed make no difference. -/
theorem processLoop_enough (rounds more : Nat) (filter : ThinkFilter)
    (enough : filter.buffer.length < rounds) :
    processLoop (rounds + more) filter = processLoop rounds filter := by
  induction rounds generalizing filter with
  | zero => exact absurd enough (Nat.not_lt_zero _)
  | succ rounds ih =>
    rw [Nat.succ_add, processLoop, processLoop]
    cases next : nextBufferEvent filter.insideThink filter.buffer with
    | none => rfl
    | some event =>
      cases event with
      | held before suffix => rfl
      | tag before kind after =>
        have shorter := length_after_lt next
        simp only
        rw [ih]
        rw [afterTag_buffer]
        omega

variable {before after suffix : List Char} {kind : ThinkTag}

theorem processBuffer_tag {filter : ThinkFilter}
    (next : nextBufferEvent filter.insideThink filter.buffer = some (.tag before kind after)) :
    filter.processBuffer = ((filter.afterTag kind after).processBuffer.1,
      (emit filter.insideThink before).followedBy
        (filter.afterTag kind after).processBuffer.2) := by
  have shorter := length_after_lt next
  have enough : processLoop filter.buffer.length (filter.afterTag kind after) =
      (filter.afterTag kind after).processBuffer := by
    obtain ⟨more, equal⟩ := Nat.exists_eq_add_of_le (Nat.succ_le_of_lt shorter)
    rw [equal, processBuffer, afterTag_buffer]
    exact processLoop_enough _ more _ (by simp)
  rw [processBuffer, processLoop, next]
  simp [enough]

theorem processBuffer_held {filter : ThinkFilter}
    (next : nextBufferEvent filter.insideThink filter.buffer = some (.held before suffix)) :
    filter.processBuffer =
      ({ filter with buffer := suffix }, emit filter.insideThink before) := by
  rw [processBuffer, processLoop, next]

theorem processBuffer_none {filter : ThinkFilter}
    (next : nextBufferEvent filter.insideThink filter.buffer = none) : filter.processBuffer =
      ({ filter with buffer := [] }, emit filter.insideThink filter.buffer) := by
  rw [processBuffer, processLoop, next]

/-- A property that each round keeps holds of every filter. -/
theorem round_induction {holds : ThinkFilter → Prop}
    (tag : ∀ filter before kind after,
      nextBufferEvent filter.insideThink filter.buffer = some (.tag before kind after) →
        holds (filter.afterTag kind after) → holds filter)
    (held : ∀ filter before suffix,
      nextBufferEvent filter.insideThink filter.buffer = some (.held before suffix) → holds filter)
    (none : ∀ filter, nextBufferEvent filter.insideThink filter.buffer = none → holds filter)
    (filter : ThinkFilter) : holds filter := by
  induction size : filter.buffer.length using Nat.strong_induction_on generalizing filter with
  | _ size ih =>
    cases next : nextBufferEvent filter.insideThink filter.buffer with
    | none => exact none filter next
    | some event =>
      cases event with
      | held before suffix => exact held filter before suffix next
      | tag before kind after =>
        apply tag filter before kind after next
        apply ih after.length
        · rw [← size]
          exact length_after_lt next
        · rw [afterTag_buffer]

/-! ## Finishing -/

theorem finish_tag
    (next : nextBufferEvent filter.insideThink filter.buffer = some (.tag before kind after)) :
    filter.finish =
      (emit filter.insideThink before).followedBy (filter.afterTag kind after).finish := by
  rw [finish, processBuffer_tag next]
  exact FilterOut.followedBy_assoc _ _ _

theorem finish_held
    (next : nextBufferEvent filter.insideThink filter.buffer = some (.held before suffix)) :
    filter.finish = emit filter.insideThink (before ++ suffix) := by
  rw [finish, processBuffer_held next, emit_append]

theorem finish_none (next : nextBufferEvent filter.insideThink filter.buffer = none) :
    filter.finish = emit filter.insideThink filter.buffer := by
  rw [finish, processBuffer_none next, emit_nil]
  exact FilterOut.followedBy_nil _

end ThinkFilter

/-! ## Nothing is lost -/

/-- A stretch of text that is sent on, or a tag. -/
inductive TextPiece
  | sent (insideThink : Bool) (text : List Char)
  | tag (text : List Char)

def TextPiece.source : TextPiece → List Char
  | .sent _ text => text
  | .tag text => text

def TextPiece.out : TextPiece → FilterOut
  | .sent insideThink text => emit insideThink text
  | .tag _ => {}

def outOf (pieces : List TextPiece) : FilterOut :=
  pieces.foldr (fun piece rest => piece.out.followedBy rest) {}

theorem outOf_append (first second : List TextPiece) :
    outOf (first ++ second) = (outOf first).followedBy (outOf second) := by
  induction first with
  | nil => rfl
  | cons piece rest ih =>
    have unfold : ∀ pieces, outOf (piece :: pieces) = piece.out.followedBy (outOf pieces) :=
      fun _ => rfl
    rw [cons_append, unfold, unfold, ih, FilterOut.followedBy_assoc]

/-- The text is pieces in order: what was sent on, and tags that the parser recognises
as a whole. -/
structure MadeOfPieces (text : List Char) (out : FilterOut) (pieces : List TextPiece) : Prop where
  source : pieces.flatMap TextPiece.source = text
  out : outOf pieces = out
  tags : ∀ tag, .tag tag ∈ pieces → ∃ kind, parseThinkTag tag = some (kind, [])

theorem MadeOfPieces.append {first second : List Char} {firstOut secondOut : FilterOut}
    {firstPieces secondPieces : List TextPiece} (left : MadeOfPieces first firstOut firstPieces)
    (right : MadeOfPieces second secondOut secondPieces) :
    MadeOfPieces (first ++ second) (firstOut.followedBy secondOut)
      (firstPieces ++ secondPieces) where
  source := by rw [flatMap_append, left.source, right.source]
  out := by rw [outOf_append, left.out, right.out]
  tags tag member := (mem_append.mp member).elim (left.tags tag) (right.tags tag)

theorem madeOfPieces_sent (insideThink : Bool) (text : List Char) :
    MadeOfPieces text (emit insideThink text) [.sent insideThink text] where
  source := by simp [TextPiece.source]
  out := by simp [outOf, TextPiece.out]
  tags tag member := by simp at member

theorem madeOfPieces_tag {tag : List Char} (parses : parseThinkTag tag = some (kind, [])) :
    MadeOfPieces tag {} [.tag tag] where
  source := by simp [TextPiece.source]
  out := rfl
  tags other member := by
    rw [mem_singleton] at member
    cases member
    exact ⟨kind, parses⟩

namespace ThinkFilter

variable (filter : ThinkFilter)

/-- What a pass over the buffer sends on, the tags it takes out, and the rest of the
buffer are the buffer. -/
theorem exists_pieces_processBuffer :
    ∃ text pieces, filter.buffer = text ++ filter.processBuffer.1.buffer ∧
      MadeOfPieces text filter.processBuffer.2 pieces := by
  induction filter using round_induction with
  | tag filter before kind after next ih =>
    obtain ⟨text, pieces, equal, made⟩ := ih
    rcases nextBufferEvent_cases filter.insideThink filter.buffer with
      none | ⟨_, _, _, tag, -, bufferEq, found, next'⟩ | ⟨_, _, -, held⟩
    · rw [next] at none
      cases none
    · rw [next] at next'
      cases next'
      have parses := found []
      rw [append_nil] at parses
      rw [processBuffer_tag next]
      rw [afterTag_buffer] at equal
      refine ⟨before ++ (tag ++ text),
        [.sent filter.insideThink before] ++ ([.tag tag] ++ pieces), ?_, ?_⟩
      · rw [bufferEq, append_assoc, append_assoc, ← equal]
      · exact (madeOfPieces_sent filter.insideThink before).append
          ((madeOfPieces_tag parses).append made)
    · rw [next] at held
      cases held
  | held filter before suffix next =>
    rcases nextBufferEvent_cases filter.insideThink filter.buffer with
      none | ⟨_, _, _, _, -, -, -, tag⟩ | ⟨_, _, bufferEq, held⟩
    · rw [next] at none
      cases none
    · rw [next] at tag
      cases tag
    · rw [next] at held
      cases held
      rw [processBuffer_held next]
      exact ⟨before, _, bufferEq, madeOfPieces_sent filter.insideThink before⟩
  | none filter next =>
    rw [processBuffer_none next]
    exact ⟨filter.buffer, _, (append_nil _).symm,
      madeOfPieces_sent filter.insideThink filter.buffer⟩

/-- The chunks are what was sent on and the tags. -/
theorem exists_pieces (chunks : List (List Char)) :
    ∃ pieces, MadeOfPieces (filter.buffer ++ chunks.flatten) (filter.filterChunks chunks)
      pieces := by
  induction chunks generalizing filter with
  | nil =>
    obtain ⟨text, pieces, equal, made⟩ := exists_pieces_processBuffer filter
    rw [flatten_nil, append_nil, equal]
    exact ⟨_, made.append (madeOfPieces_sent _ _)⟩
  | cons chunk rest ih =>
    obtain ⟨text, pieces, equal, made⟩ := exists_pieces_processBuffer (filter.append chunk)
    obtain ⟨restPieces, restMade⟩ := ih (filter.push chunk).1
    have whole : filter.buffer ++ (chunk :: rest).flatten =
        text ++ ((filter.push chunk).1.buffer ++ rest.flatten) := by
      have joined : filter.buffer ++ chunk = text ++ (filter.push chunk).1.buffer := equal
      rw [flatten_cons, ← append_assoc, joined, append_assoc]
    rw [whole]
    exact ⟨_, made.append restMade⟩

end ThinkFilter

/-! ## What is let go -/

/-- The places of the buffer that have no event, up to the first that has one. -/
def passedOver (insideThink : Bool) : List Char → List (List Char)
  | [] => []
  | c :: rest =>
    if (eventHere insideThink (c :: rest)).isSome then []
    else (c :: rest) :: passedOver insideThink rest

/-- A pass over the buffer of the filter lets the place go. -/
inductive Releases : ThinkFilter → Bool → List Char → Prop
  | here {filter : ThinkFilter} {suffix : List Char}
      (passed : suffix ∈ passedOver filter.insideThink filter.buffer) :
      Releases filter filter.insideThink suffix
  | later {filter : ThinkFilter} {before after suffix : List Char} {kind : ThinkTag}
      {insideThink : Bool}
      (next : nextBufferEvent filter.insideThink filter.buffer = some (.tag before kind after))
      (releases : Releases (filter.afterTag kind after) insideThink suffix) :
      Releases filter insideThink suffix

/-- No tag begins in the text. -/
def NoTags (insideThink : Bool) (text : List Char) : Prop :=
  ∀ front suffix, text = front ++ suffix →
    ∀ kind after, eventHere insideThink suffix ≠ some (.tag [] kind after)

/-- The text may be let go at its front: no event is there, or it is held back to
the end and no tag stands behind its front. -/
def Passable (insideThink : Bool) (text : List Char) : Prop :=
  eventHere insideThink text = none ∨
    (eventHere insideThink text = some (.held [] text) ∧ NoTags insideThink text.tail)

/-- Every open end that a push lets go may be let go with the chunks to come. -/
def LetsGoSafely : ThinkFilter → List (List Char) → Prop
  | _, [] => True
  | filter, chunk :: rest =>
    (∀ insideThink suffix, Releases (filter.append chunk) insideThink suffix →
      OpenEnd suffix → Passable insideThink (suffix ++ rest.flatten)) ∧
    LetsGoSafely (filter.push chunk).1 rest

theorem eventHere_of_mem_passedOver (passed : suffix ∈ passedOver insideThink buffer) :
    eventHere insideThink suffix = none ∧ suffix ≠ [] := by
  induction buffer with
  | nil => cases passed
  | cons c rest ih =>
    rw [passedOver] at passed
    split at passed
    · cases passed
    · next none =>
      rcases mem_cons.mp passed with rfl | inRest
      · exact ⟨Option.not_isSome_iff_eq_none.mp none, cons_ne_nil _ _⟩
      · exact ih inRest

theorem eventHere_of_releases {filter : ThinkFilter} (releases : Releases filter insideThink suffix)
    : eventHere insideThink suffix = none ∧ suffix ≠ [] := by
  induction releases with
  | here passed => exact eventHere_of_mem_passedOver passed
  | later _ _ ih => exact ih

theorem eventHere_of_not_bracket {c : Char} (other : c ≠ '<') (insideThink : Bool)
    (rest : List Char) : eventHere insideThink (c :: rest) = none := by
  have noTag : parseThinkTag (c :: rest) = none := by
    unfold parseThinkTag
    split
    · next equal => exact absurd (cons.inj equal).1 other
    · next equal => exact absurd (cons.inj equal).1 other
    · rfl
  have notHeld : isPossiblePartialThinkTag (c :: rest) = false := by
    unfold isPossiblePartialThinkTag
    split
    · next equal => exact absurd (cons.inj equal).1 other
    · rfl
  rw [eventHere, noTag]
  simp [notHeld]

/-- Only an open end becomes an event when more text comes. -/
theorem eventHere_append (none : eventHere insideThink suffix = none) (nonempty : suffix ≠ [])
    (settled : ¬OpenEnd suffix) (more : List Char) :
    eventHere insideThink (suffix ++ more) = Option.none := by
  cases suffix with
  | nil => exact absurd rfl nonempty
  | cons c rest =>
    by_cases isBracket : c = '<'
    · subst isBracket
      unfold eventHere at none
      cases parses : parseThinkTag ('<' :: rest) with
      | some found =>
        rw [parses] at none
        rw [eventHere, parses_append parses]
        simp only at none ⊢
        split at none
        · cases none
        · next uncounted => rw [if_neg uncounted]
      | none =>
        rw [parses] at none
        simp only at none
        split at none
        · cases none
        · next notHeld =>
          obtain ⟨noTag, stillNotHeld⟩ :=
            settled_append parses (by simpa using notHeld) settled more
          rw [cons_append, eventHere, noTag]
          simp [stillNotHeld]
    · exact eventHere_of_not_bracket isBracket insideThink (rest ++ more)

/-! ## The text behind a cut -/

theorem nextBufferEvent_of_noTags {text : List Char} (none : NoTags insideThink text) :
    nextBufferEvent insideThink text ≠ some (.tag before kind after) := by
  induction text generalizing before with
  | nil => exact nofun
  | cons c rest ih =>
    intro next
    rw [nextBufferEvent] at next
    cases here : eventHere insideThink (c :: rest) with
    | some event =>
      rw [here] at next
      rcases eventHere_cases here with ⟨kind', after', -, rfl, -⟩ | ⟨-, -, rfl⟩
      · exact none [] (c :: rest) rfl kind' after' here
      · cases next
    | none =>
      rw [here] at next
      obtain ⟨event, restNext, behind⟩ := Option.map_eq_some_iff.mp next
      cases event with
      | held before' suffix => cases behind
      | tag before' kind' after' =>
        cases behind
        apply ih _ restNext
        intro front suffix equal
        exact none (c :: front) suffix (by rw [equal, cons_append])

namespace ThinkFilter

variable {insideThink : Bool} {thinkDepth : Nat} {rest : List Char}

/-- A place without an event is sent on, and the rest is filtered. -/
theorem finish_of_noEvent {c : Char} (none : eventHere insideThink (c :: rest) = none) :
    (ThinkFilter.mk (c :: rest) insideThink thinkDepth).finish =
      (emit insideThink [c]).followedBy (ThinkFilter.mk rest insideThink thinkDepth).finish := by
  have step : nextBufferEvent insideThink (c :: rest) =
      (nextBufferEvent insideThink rest).map (BufferEvent.behind c) := by
    rw [nextBufferEvent, none]
  cases next : nextBufferEvent insideThink rest with
  | none =>
    rw [next] at step
    rw [finish_none ⟨c :: rest, insideThink, thinkDepth⟩ step,
      finish_none ⟨rest, insideThink, thinkDepth⟩ next]
    exact emit_cons insideThink c rest
  | some event =>
    rw [next] at step
    cases event with
    | tag before kind after =>
      rw [finish_tag ⟨c :: rest, insideThink, thinkDepth⟩ step,
        finish_tag ⟨rest, insideThink, thinkDepth⟩ next]
      simp only [emit_cons insideThink c before, FilterOut.followedBy_assoc]
      cases kind <;> rfl
    | held before suffix =>
      rw [finish_held ⟨c :: rest, insideThink, thinkDepth⟩ step,
        finish_held ⟨rest, insideThink, thinkDepth⟩ next]
      exact emit_cons insideThink c (before ++ suffix)

/-- A text that may be let go at its front is sent on from there. -/
theorem finish_of_passable {c : Char} (passable : Passable insideThink (c :: rest)) :
    (ThinkFilter.mk (c :: rest) insideThink thinkDepth).finish =
      (emit insideThink [c]).followedBy (ThinkFilter.mk rest insideThink thinkDepth).finish := by
  rcases passable with none | ⟨held, noTags⟩
  · exact finish_of_noEvent none
  · have step : nextBufferEvent insideThink (c :: rest) = some (.held [] (c :: rest)) := by
      rw [nextBufferEvent, held]
    have sent : (ThinkFilter.mk rest insideThink thinkDepth).finish = emit insideThink rest := by
      rcases nextBufferEvent_cases insideThink rest with
        none | ⟨_, _, _, _, -, -, -, tag⟩ | ⟨before, suffix, equal, next⟩
      · exact finish_none _ none
      · exact absurd tag (nextBufferEvent_of_noTags noTags)
      · rw [finish_held ⟨rest, insideThink, thinkDepth⟩ next, equal]
    rw [finish_held ⟨c :: rest, insideThink, thinkDepth⟩ step, sent]
    exact emit_cons insideThink c rest

/-- What a pass lets go is sent on, up to the first event. -/
theorem exists_finish_of_passed {later : List Char} (thinkDepth : Nat) {buffer : List Char}
    (safe : ∀ suffix ∈ passedOver insideThink buffer, Passable insideThink (suffix ++ later)) :
    ∃ before suffix, buffer = before ++ suffix ∧
      (ThinkFilter.mk (buffer ++ later) insideThink thinkDepth).finish =
        (emit insideThink before).followedBy
          (ThinkFilter.mk (suffix ++ later) insideThink thinkDepth).finish ∧
      ((suffix = [] ∧ nextBufferEvent insideThink buffer = none) ∨
        ∃ event, eventHere insideThink suffix = some event ∧
          nextBufferEvent insideThink buffer = some (before.foldr BufferEvent.behind event)) := by
  induction buffer with
  | nil => exact ⟨[], [], rfl, by simp, Or.inl ⟨rfl, rfl⟩⟩
  | cons c rest ih =>
    rw [passedOver] at safe
    cases here : eventHere insideThink (c :: rest) with
    | some event =>
      refine ⟨[], c :: rest, rfl, by simp, Or.inr ⟨event, here, ?_⟩⟩
      rw [nextBufferEvent, here]
      rfl
    | none =>
      rw [here] at safe
      obtain ⟨first, restSafe⟩ := forall_mem_cons.mp safe
      have passable : Passable insideThink (c :: (rest ++ later)) := first
      obtain ⟨before, suffix, equal, finished, next⟩ := ih restSafe
      have step : nextBufferEvent insideThink (c :: rest) =
          (nextBufferEvent insideThink rest).map (BufferEvent.behind c) := by
        rw [nextBufferEvent, here]
      refine ⟨c :: before, suffix, by rw [equal, cons_append], ?_, ?_⟩
      · rw [cons_append, finish_of_passable passable, finished,
          emit_cons insideThink c before, FilterOut.followedBy_assoc]
      · rcases next with ⟨isNil, none⟩ | ⟨event, atSuffix, found⟩
        · exact Or.inl ⟨isNil, by rw [step, none]; rfl⟩
        · exact Or.inr ⟨event, atSuffix, by rw [step, found]; rfl⟩

theorem foldr_behind_tag (before : List Char) (kind : ThinkTag) (after : List Char) :
    before.foldr BufferEvent.behind (.tag [] kind after) = .tag before kind after := by
  induction before with
  | nil => rfl
  | cons c before ih => rw [foldr_cons, ih, BufferEvent.behind]

theorem foldr_behind_held (before suffix : List Char) :
    before.foldr BufferEvent.behind (.held [] suffix) = .held before suffix := by
  induction before with
  | nil => rfl
  | cons c before ih => rw [foldr_cons, ih, BufferEvent.behind]

variable (filter : ThinkFilter)

/-- A pass and the text to come give what the whole text gives. -/
theorem finish_append_of_safe (later : List Char)
    (safe : ∀ insideThink suffix, Releases filter insideThink suffix →
      Passable insideThink (suffix ++ later)) : (filter.append later).finish =
      filter.processBuffer.2.followedBy (filter.processBuffer.1.append later).finish := by
  induction filter using round_induction with
  | tag filter before kind after next ih =>
    obtain ⟨front, suffix, equal, finished, found⟩ :=
      exists_finish_of_passed filter.thinkDepth
        (fun suffix passed => safe filter.insideThink suffix (.here passed))
    rcases found with ⟨-, none⟩ | ⟨event, here, found⟩
    · rw [next] at none
      cases none
    · rw [next] at found
      rcases eventHere_cases here with ⟨kind', after', parses, rfl, counts⟩ | ⟨-, -, rfl⟩
      · rw [foldr_behind_tag] at found
        cases found
        have stillHere : eventHere filter.insideThink (suffix ++ later) =
            some (.tag [] kind (after ++ later)) := by
          rw [eventHere, parses_append parses]
          simp only [Bool.or_eq_true, decide_eq_true_eq]
          exact if_pos counts
        have stillNext : nextBufferEvent filter.insideThink (suffix ++ later) =
            some (.tag [] kind (after ++ later)) := by
          obtain ⟨tag, nonempty, rfl, -⟩ := exists_of_parses parses
          cases tag with
          | nil => exact absurd rfl nonempty
          | cons c tag =>
            rw [cons_append, cons_append] at stillHere ⊢
            rw [nextBufferEvent, stillHere]
        have behind := ih fun insideThink suffix releases =>
          safe insideThink suffix (.later next releases)
        have ended := finish_tag ⟨suffix ++ later, filter.insideThink, filter.thinkDepth⟩ stillNext
        rw [emit_nil, FilterOut.nil_followedBy] at ended
        have appended : ThinkFilter.afterTag
            ⟨suffix ++ later, filter.insideThink, filter.thinkDepth⟩ kind (after ++ later) =
              (filter.afterTag kind after).append later := by
          cases kind <;> rfl
        rw [appended, behind] at ended
        rw [processBuffer_tag next, FilterOut.followedBy_assoc, ← ended]
        exact finished
      · rw [foldr_behind_held] at found
        cases found
  | held filter before suffix next =>
    obtain ⟨front, place, equal, finished, found⟩ :=
      exists_finish_of_passed filter.thinkDepth
        (fun suffix passed => safe filter.insideThink suffix (.here passed))
    rcases found with ⟨-, none⟩ | ⟨event, here, found⟩
    · rw [next] at none
      cases none
    · rw [next] at found
      rcases eventHere_cases here with ⟨kind', after', -, rfl, -⟩ | ⟨-, -, rfl⟩
      · rw [foldr_behind_tag] at found
        cases found
      · rw [foldr_behind_held] at found
        cases found
        rw [processBuffer_held next]
        exact finished
  | none filter next =>
    obtain ⟨front, place, equal, finished, found⟩ :=
      exists_finish_of_passed filter.thinkDepth
        (fun suffix passed => safe filter.insideThink suffix (.here passed))
    rcases found with ⟨rfl, -⟩ | ⟨event, -, found⟩
    · rw [append_nil] at equal
      rw [← equal] at finished
      rw [processBuffer_none next]
      exact finished
    · rw [next] at found
      cases found

/-- The chunks give what the whole text gives when no open end is let go that becomes
a tag. -/
theorem filterChunks_of_safe (chunks : List (List Char)) (safe : LetsGoSafely filter chunks) :
    filter.filterChunks chunks = (filter.append chunks.flatten).finish := by
  induction chunks generalizing filter with
  | nil =>
    have same : filter.append [] = filter := by simp [append]
    rw [flatten_nil, same]
    rfl
  | cons chunk rest ih =>
    obtain ⟨openEnds, restSafe⟩ := safe
    have all : ∀ insideThink suffix, Releases (filter.append chunk) insideThink suffix →
        Passable insideThink (suffix ++ rest.flatten) := by
      intro insideThink suffix releases
      by_cases isOpen : OpenEnd suffix
      · exact openEnds insideThink suffix releases isOpen
      · obtain ⟨none, nonempty⟩ := eventHere_of_releases releases
        exact Or.inl (eventHere_append none nonempty isOpen rest.flatten)
    have step := finish_append_of_safe (filter.append chunk) rest.flatten all
    have joined : (filter.append chunk).append rest.flatten =
        filter.append (chunk :: rest).flatten := by
      simp [append]
    rw [← joined, step, ThinkFilter.filterChunks, ih _ restSafe]
    rfl

end ThinkFilter

theorem splitThinkBlocks_eq (text : List Char) :
    splitThinkBlocks text = (ThinkFilter.mk text false 0).finish := by
  have all : ∀ insideThink suffix, Releases (ThinkFilter.append {} text) insideThink suffix →
      Passable insideThink (suffix ++ []) := by
    intro insideThink suffix releases
    rw [append_nil]
    exact Or.inl (eventHere_of_releases releases).1
  have step := ThinkFilter.finish_append_of_safe (ThinkFilter.append {} text) [] all
  have whole : (ThinkFilter.append {} text).append [] = ThinkFilter.mk text false 0 := by
    simp [ThinkFilter.append]
  rw [whole] at step
  rw [step]
  have same : ∀ filter : ThinkFilter, filter.append [] = filter := fun filter => by
    simp [ThinkFilter.append]
  rw [same]
  rfl

/-- The chunks of a text lose nothing of it, and where they let no open end go that the
text behind the cut completes, they are filtered as the whole text is. -/
theorem filterChunks_eq_splitThinkBlocks (chunks : List (List Char)) :
    (∃ pieces, MadeOfPieces chunks.flatten (ThinkFilter.filterChunks {} chunks) pieces) ∧
      (LetsGoSafely {} chunks →
        ThinkFilter.filterChunks {} chunks = splitThinkBlocks chunks.flatten) := by
  constructor
  · exact ThinkFilter.exists_pieces {} chunks
  · intro safe
    rw [ThinkFilter.filterChunks_of_safe {} chunks safe, splitThinkBlocks_eq]
    rfl

/-- A cut behind the angle bracket of a tag. -/
def cutBracket : List (List Char) :=
  [['<'], "think>x</think>y".toList]

/-- The tags become content. -/
theorem filterChunks_cutBracket :
    ThinkFilter.filterChunks {} cutBracket = ⟨"<think>x</think>y".toList, []⟩ ∧
      splitThinkBlocks cutBracket.flatten = ⟨['y'], ['x']⟩ := by
  decide +kernel

/-- A cut in the name of a closing tag. -/
def cutName : List (List Char) :=
  ["<think>x</thi".toList, "nk>y".toList]

theorem not_openEnd_of_other {c : Char} {rest : List Char} (other : c ≠ '<') :
    ¬OpenEnd (c :: rest) := by
  intro isOpen
  cases isOpen <;> exact other rfl

theorem letsGoSafely_cutName : LetsGoSafely {} cutName := by
  refine ⟨?_, ?_, trivial⟩
  · intro insideThink suffix releases isOpen
    exfalso
    cases releases with
    | here passed =>
      have nowhere : passedOver false "<think>x</thi".toList = [] := by decide +kernel
      have isNowhere : suffix ∈ passedOver false "<think>x</thi".toList := passed
      cases isNowhere
    | @later _ before after _ kind _ next releases =>
      have first : nextBufferEvent false "<think>x</thi".toList =
          some (.tag [] .opening "x</thi".toList) := by decide +kernel
      cases first.symm.trans next
      cases releases with
      | here passed =>
        have only : passedOver true "x</thi".toList = ["x</thi".toList] := by decide +kernel
        have isOnly : suffix ∈ passedOver true "x</thi".toList := passed
        rw [only, mem_singleton] at isOnly
        subst isOnly
        exact not_openEnd_of_other (by decide) isOpen
      | later next releases =>
        have second : nextBufferEvent true "x</thi".toList =
            some (.held ['x'] "</thi".toList) := by decide +kernel
        cases second.symm.trans next
  · intro insideThink suffix releases isOpen
    exfalso
    cases releases with
    | here passed =>
      have isNowhere : suffix ∈ passedOver true "</think>y".toList := passed
      cases isNowhere
    | later next releases =>
      have first : nextBufferEvent true "</think>y".toList =
          some (.tag [] .closing ['y']) := by decide +kernel
      cases first.symm.trans next
      cases releases with
      | here passed =>
        have isOnly : suffix = ['y'] := mem_singleton.mp passed
        subst isOnly
        exact not_openEnd_of_other (by decide) isOpen
      | later next releases =>
        have second : nextBufferEvent false ['y'] = none := by decide +kernel
        cases second.symm.trans next

theorem filterChunks_cutName :
    ThinkFilter.filterChunks {} cutName = splitThinkBlocks cutName.flatten :=
  (filterChunks_eq_splitThinkBlocks cutName).2 letsGoSafely_cutName

end Obelus.Formats
