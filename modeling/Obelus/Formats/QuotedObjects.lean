import Obelus.Formats.ControlCharacters

/-!
# Objects that begin in a string

A text that begins in a string of a document and is read as a document of its own takes
what stands between the strings of the first for its strings.  Its keys are made of the
characters with which JSON texts are put together, whatever repair it goes through.
-/

namespace Obelus.Formats

open Obelus.Data.ListDecide List
open Obelus.Data.JsonText

/-- The characters of a document outside its strings. -/
def structuralChars : List Char :=
  bareChars ++ ['[', ']', '{', '}']

/-- The state after a character of a JSON text, which has nothing but structural
characters outside its strings. -/
def StringState.tokenNext (state : StringState) (c : Char) : Option StringState :=
  if state = .outside then
    if c = '"' ∨ c ∈ structuralChars then some (state.next c) else none
  else if c.val ≤ 0x1F then none else some (state.next c)

open StringState (tokenNext)

def Tokens (text : List Char) : Prop :=
  text.foldlM tokenNext .outside = some .outside

variable {body text : List Char} {state last other otherLast place : StringState} {c : Char}
  {host : Host} {fields : JsonObject}

theorem tokenNext_body (loose : LooseBody body) :
    body.foldlM tokenNext .inside = some .inside := by
  induction loose with
  | nil => rfl
  | @plain c rest plain _ ih =>
    have step : StringState.inside.tokenNext c = some .inside := strictNext_plain plain
    rw [foldlM_cons, step]
    exact ih
  | @escape c rest visible _ ih =>
    have notControl : ¬c.val ≤ 0x1F := Nat.not_le.mpr visible
    have letter : StringState.escaped.tokenNext c = some .inside := by
      simp [tokenNext, StringState.next, notControl]
    have afterSlash : (c :: rest).foldlM tokenNext .escaped = some .inside := by
      rw [foldlM_cons, letter]
      exact ih
    exact afterSlash

theorem Tokens.append {left right : List Char} (leftTokens : Tokens left)
    (rightTokens : Tokens right) : Tokens (left ++ right) := by
  rw [Tokens, foldlM_append, leftTokens]
  exact rightTokens

theorem composes_tokens : Composes Tokens where
  nil := rfl
  append := Tokens.append
  bare c isBare := by
    have other : ∀ c ∈ bareChars, Tokens [c] := by
      unfold Tokens
      decide
    exact other c isBare
  string isBody := by
    have inside : ∀ body, LooseBody body →
        (body ++ ['"']).foldlM tokenNext .inside = some .outside := by
      intro body loose
      rw [foldlM_append, tokenNext_body loose]
      rfl
    exact inside _ isBody.loose
  array tokens := by
    have opener : Tokens ['['] := rfl
    have closer : Tokens [']'] := rfl
    exact opener.append (tokens.append closer)
  object tokens := by
    have opener : Tokens ['{'] := rfl
    have closer : Tokens ['}'] := rfl
    exact opener.append (tokens.append closer)

/-- What escapes of one letter stand for. -/
def letterEscapes : List (Char × Char) :=
  [('"', '"'), ('\\', '\\'), ('/', '/'), ('b', '\x08'), ('f', '\x0C'), ('n', '\n'), ('r', '\r'),
    ('t', '\t')]

/-- The text that the body of a string stands for; what the code of an escape stands for is
not looked at. -/
inductive Unescapes : List Char → List Char → Prop
  | nil : Unescapes [] []
  | plain {c : Char} {rest text : List Char} : isPlain c → Unescapes rest text →
      Unescapes (c :: rest) (c :: text)
  | escape {letter c : Char} {rest text : List Char} : (letter, c) ∈ letterEscapes →
      Unescapes rest text → Unescapes ('\\' :: letter :: rest) (c :: text)
  | unicode {rest text : List Char} (code : List Char) : Unescapes rest text →
      Unescapes ('\\' :: 'u' :: rest) (code ++ text)

/-- The keys of an object that the parser accepts stand in its text as strings. -/
def KeysAreStrings (host : Host) : Prop :=
  ∀ text fields, host.fromStr text = some (.object fields) → ∀ field ∈ fields,
    ∃ front body back, text.toList = front ++ (quoted body ++ back) ∧
      front.foldl StringState.next .outside = .outside ∧ Unescapes body field.1.toList

/-- The state after a character of a text of which the strings are made of structural
characters and of the escapes of those among them that are control characters. -/
def StringState.mirrorNext : StringState → Char → Option StringState
  | .outside, c => some (StringState.outside.next c)
  | .inside, c =>
    if c = '"' then some .outside
    else if c = '\\' then some .escaped
    else if c ∈ structuralChars then some .inside else none
  | .escaped, c => if c ∈ ['n', 'r', 't'] then some .inside else none

open StringState (mirrorNext)

theorem eq_next_of_mirrorNext {next : StringState} (step : state.mirrorNext c = some next) :
    next = state.next c := by
  cases state with
  | outside => exact (Option.some.inj step).symm
  | inside =>
    simp only [mirrorNext] at step
    split_ifs at step with isQuote isSlash <;> cases step
    · rw [isQuote]
      rfl
    · rw [isSlash]
      rfl
    · simp [StringState.next, isQuote, isSlash]
  | escaped =>
    simp only [mirrorNext] at step
    split_ifs at step
    exact (Option.some.inj step).symm

theorem foldl_of_mirrorNext (mirrored : text.foldlM mirrorNext state = some last) :
    text.foldl StringState.next state = last := by
  induction text generalizing state with
  | nil => exact Option.some.inj mirrored
  | cons c rest ih =>
    obtain ⟨middle, step, restMirrored⟩ := Option.bind_eq_some_iff.mp mirrored
    rw [foldl_cons, ← eq_next_of_mirrorNext step]
    exact ih restMirrored

/-- What such a string stands for is made of structural characters. -/
theorem structural_of_unescapes (unescapes : Unescapes body text)
    (mirrored : body.foldlM mirrorNext .inside = some last) :
    ∀ c ∈ text, c ∈ structuralChars := by
  induction unescapes with
  | nil => exact forall_mem_nil _
  | @plain c rest text isPlain _ ih =>
    obtain ⟨middle, step, restMirrored⟩ := Option.bind_eq_some_iff.mp mirrored
    simp only [mirrorNext, isPlain.2.1, isPlain.2.2, if_false] at step
    split at step
    · next isStructural =>
      cases step
      exact forall_mem_cons.mpr ⟨isStructural, ih restMirrored⟩
    · cases step
  | @escape letter c rest text isEscape _ ih =>
    have afterSlash : (letter :: rest).foldlM mirrorNext .escaped = some last :=
      mirrored
    obtain ⟨middle, step, restMirrored⟩ := Option.bind_eq_some_iff.mp afterSlash
    simp only [mirrorNext] at step
    split at step
    · next isSpace =>
      have spaces : ∀ pair ∈ letterEscapes, pair.1 ∈ ['n', 'r', 't'] →
          pair.2 ∈ structuralChars := by decide
      cases step
      exact forall_mem_cons.mpr ⟨spaces (letter, c) isEscape isSpace, ih restMirrored⟩
    · cases step
  | @unicode rest text code _ ih =>
    have afterSlash : ('u' :: rest).foldlM mirrorNext .escaped = some last := mirrored
    rw [foldlM_cons] at afterSlash
    obtain ⟨middle, step, -⟩ := Option.bind_eq_some_iff.mp afterSlash
    cases step

theorem keys_structural (keys : KeysAreStrings host) {text : String}
    (parses : host.fromStr text = some (.object fields))
    (mirrored : text.toList.foldlM mirrorNext .outside = some last) :
    ∀ field ∈ fields, ∀ c ∈ field.1.toList, c ∈ structuralChars := by
  intro field member
  obtain ⟨front, body, back, isText, outside, unescapes⟩ := keys text fields parses field member
  rw [isText, foldlM_append] at mirrored
  obtain ⟨middle, frontMirrored, restMirrored⟩ := Option.bind_eq_some_iff.mp mirrored
  rw [foldl_of_mirrorNext frontMirrored] at outside
  rw [outside, quoted, cons_append, append_assoc] at restMirrored
  have inString : (body ++ (['"'] ++ back)).foldlM mirrorNext .inside = some last :=
    restMirrored
  rw [foldlM_append] at inString
  obtain ⟨after, bodyMirrored, -⟩ := Option.bind_eq_some_iff.mp inString
  exact structural_of_unescapes unescapes bodyMirrored

/-- Where one reading is in a string the other is outside. -/
def Flipped (state other : StringState) : Prop :=
  (state = .inside ∧ other = .outside) ∨ (state = .outside ∧ other = .inside)

theorem structural_ne_slash (isStructural : c ∈ structuralChars) : c ≠ '\\' := by
  rintro rfl
  exact absurd isStructural (by decide)

/-- Both readings change places at a quote, and what is in a string for the second is
structural for the first. -/
theorem Flipped.step {next otherNext : StringState} (flipped : Flipped state other)
    (token : state.tokenNext c = some next) (strict : other.strictNext c = some otherNext) :
    Flipped next otherNext ∧ other.mirrorNext c = some otherNext := by
  rcases flipped with ⟨rfl, rfl⟩ | ⟨rfl, rfl⟩
  · have notSlash : c ≠ '\\' := by
      rintro rfl
      cases strict
    have isNext : otherNext = StringState.outside.next c := eq_next_of_strictNext strict
    have tokenIsNext : next = StringState.inside.next c := eq_next_of_strictNext token
    rw [isNext, tokenIsNext]
    refine ⟨?_, rfl⟩
    by_cases isQuote : c = '"'
    · rw [isQuote]
      exact Or.inr ⟨rfl, rfl⟩
    · left
      simp [StringState.next, notSlash, isQuote]
  · have isNext : otherNext = StringState.inside.next c := eq_next_of_strictNext strict
    simp only [tokenNext, if_true] at token
    split at token
    · next isToken =>
      cases token
      rw [isNext]
      by_cases isQuote : c = '"'
      · rw [isQuote]
        exact ⟨Or.inl ⟨rfl, rfl⟩, rfl⟩
      · have isStructural := isToken.resolve_left isQuote
        have notSlash := structural_ne_slash isStructural
        simp [Flipped, StringState.next, mirrorNext, isQuote, notSlash, isStructural]
    · cases token

/-- A control character stands between strings of the first reading. -/
theorem Flipped.control {next : StringState} (flipped : Flipped state other)
    (token : state.tokenNext c = some next) (control : c.val ≤ 0x1F) :
    next = .outside ∧ other = .inside ∧ c ∈ ['\n', '\r', '\t'] := by
  rcases flipped with ⟨rfl, rfl⟩ | ⟨rfl, rfl⟩
  · simp [tokenNext, control] at token
  · simp only [tokenNext, if_true] at token
    split at token
    · next isToken =>
      have spaces : ∀ c ∈ '"' :: structuralChars, c.val ≤ 0x1F →
          c ∈ ['\n', '\r', '\t'] ∧ StringState.outside.next c = .outside := by decide
      obtain ⟨isSpace, isNext⟩ := spaces c (mem_cons.mpr isToken) control
      exact ⟨(Option.some.inj token).symm.trans isNext, rfl, isSpace⟩
    · cases token

/-- With its control characters escaped the text has strings of structural characters. -/
theorem mirrored_escapeAll (flipped : Flipped state other)
    (tokens : text.foldlM tokenNext state = some last)
    (strict : (escapeAll text).foldlM StringState.strictNext other = some otherLast) :
    Flipped last otherLast ∧
      (escapeAll text).foldlM mirrorNext other = some otherLast := by
  induction text generalizing state other with
  | nil =>
    cases tokens
    cases strict
    exact ⟨flipped, rfl⟩
  | cons c rest ih =>
    have unfold : escapeAll (c :: rest) =
        (if c.val ≤ 0x1F then escapeControl c else [c]) ++ escapeAll rest := rfl
    obtain ⟨middle, step, restTokens⟩ := Option.bind_eq_some_iff.mp tokens
    rw [unfold, foldlM_append] at strict ⊢
    by_cases control : c.val ≤ 0x1F
    · obtain ⟨rfl, rfl, isSpace⟩ := flipped.control step control
      have escapes : ∀ c ∈ ['\n', '\r', '\t'],
          (escapeControl c).foldlM mirrorNext .inside = some .inside := by decide
      rw [if_pos control] at strict ⊢
      rw [strictNext_escapeControl control (by decide)] at strict
      rw [escapes c isSpace]
      exact ih (Or.inr ⟨rfl, rfl⟩) restTokens strict
    · rw [if_neg control, foldlM_cons] at strict ⊢
      obtain ⟨otherMiddle, oneStrict, restStrict⟩ := Option.bind_eq_some_iff.mp strict
      obtain ⟨found, otherStep, isSame⟩ := Option.bind_eq_some_iff.mp oneStrict
      cases isSame
      obtain ⟨nextFlipped, mirrored⟩ := flipped.step step otherStep
      rw [mirrored]
      exact ih nextFlipped restTokens restStrict

/-- A text that both readings accept has no control character. -/
theorem escapeAll_eq_self (flipped : Flipped state other)
    (tokens : text.foldlM tokenNext state = some last)
    (strict : text.foldlM StringState.strictNext other = some otherLast) :
    escapeAll text = text := by
  induction text generalizing state other with
  | nil => rfl
  | cons c rest ih =>
    have unfold : escapeAll (c :: rest) =
        (if c.val ≤ 0x1F then escapeControl c else [c]) ++ escapeAll rest := rfl
    obtain ⟨middle, step, restTokens⟩ := Option.bind_eq_some_iff.mp tokens
    obtain ⟨otherMiddle, otherStep, restStrict⟩ := Option.bind_eq_some_iff.mp strict
    have visible : ¬c.val ≤ 0x1F := by
      intro control
      obtain ⟨-, rfl, -⟩ := flipped.control step control
      simp [StringState.strictNext, control] at otherStep
    rw [unfold, if_neg visible, singleton_append,
      ih (flipped.step step otherStep).1 restTokens restStrict]

/-- The repair is where the reading of the strings is. -/
def RepairState.At (state : RepairState) (place : StringState) : Prop :=
  (state.inString = true ↔ place ≠ .outside) ∧ (state.escapeNext = true ↔ place = .escaped)

theorem RepairState.At.push {state : RepairState} (isAt : state.At place) (c : Char) :
    (state.push c).At (place.next c) := by
  rcases state with ⟨repaired, inString, escapeNext, closers⟩
  obtain ⟨isInString, isEscaped⟩ := isAt
  cases place with
  | outside =>
    simp only [RepairState.push, StringState.next]
    split_ifs <;> simp_all [RepairState.At]
  | inside =>
    simp only [RepairState.push, StringState.next]
    split_ifs <;> simp_all [RepairState.At]
  | escaped =>
    simp only [ne_eq, reduceCtorEq, not_false_iff, iff_true] at isInString isEscaped
    subst isInString isEscaped
    simp [RepairState.push, RepairState.At, StringState.next]

theorem RepairState.At.foldl {state : RepairState} (isAt : state.At place) (text : List Char) :
    (text.foldl RepairState.push state).At (text.foldl StringState.next place) := by
  induction text generalizing state place with
  | nil => exact isAt
  | cons c rest ih => exact ih (isAt.push c)

def closingChars : List Char :=
  ['}', ']']

theorem RepairState.closers_push {state : RepairState}
    (areClosing : ∀ c ∈ state.closers, c ∈ closingChars) (c : Char) :
    ∀ closer ∈ (state.push c).closers, closer ∈ closingChars := by
  have brace : ∀ closer ∈ '}' :: state.closers, closer ∈ closingChars :=
    forall_mem_cons.mpr ⟨by decide, areClosing⟩
  have bracket : ∀ closer ∈ ']' :: state.closers, closer ∈ closingChars :=
    forall_mem_cons.mpr ⟨by decide, areClosing⟩
  have tail : ∀ closer ∈ state.closers.tail, closer ∈ closingChars :=
    fun closer member => areClosing closer (mem_of_mem_tail member)
  simp only [RepairState.push]
  split_ifs
  all_goals first | exact areClosing | exact brace | exact bracket | exact tail

theorem RepairState.closers_foldl {state : RepairState}
    (areClosing : ∀ c ∈ state.closers, c ∈ closingChars) (text : List Char) :
    ∀ closer ∈ (text.foldl RepairState.push state).closers, closer ∈ closingChars := by
  induction text generalizing state with
  | nil => exact areClosing
  | cons c rest ih => exact ih (RepairState.closers_push areClosing c)

/-- A text that ends outside its strings is repaired by closing its brackets. -/
theorem exists_closing (outside : text.foldl StringState.next .outside = .outside) :
    ∃ closing, repairTruncatedJson (String.ofList text) = String.ofList (text ++ closing) ∧
      ∀ c ∈ closing, c ∈ closingChars := by
  have start : RepairState.At {} .outside := by simp [RepairState.At]
  have isAt := start.foldl text
  rw [outside] at isAt
  have notInString : (text.foldl RepairState.push {}).inString = false := by
    simpa using isAt.1
  have repaired := RepairState.repaired_foldl {} text
  refine ⟨(text.foldl RepairState.push {}).closers, ?_, ?_⟩
  · simp [repairTruncatedJson, notInString, repaired]
  · exact RepairState.closers_foldl (forall_mem_nil _) text

theorem foldl_of_strictNext (strict : text.foldlM StringState.strictNext state = some last) :
    text.foldl StringState.next state = last := by
  induction text generalizing state with
  | nil => exact Option.some.inj strict
  | cons c rest ih =>
    obtain ⟨middle, step, restStrict⟩ := Option.bind_eq_some_iff.mp strict
    rw [foldl_cons, ← eq_next_of_strictNext step]
    exact ih restStrict

/-- Without a quote no string begins. -/
theorem foldl_outside (noQuote : '"' ∉ text) : text.foldl StringState.next .outside = .outside := by
  induction text with
  | nil => rfl
  | cons c rest ih =>
    rw [mem_cons, not_or] at noQuote
    rw [foldl_cons, StringState.next, if_neg (Ne.symm noQuote.1)]
    exact ih noQuote.2

/-- An escape leaves the reading where its control character does. -/
theorem foldl_escapeControl (control : c.val ≤ 0x1F) (state : StringState) :
    (escapeControl c).foldl StringState.next state = state.next c := by
  by_cases isOutside : state = .outside
  · obtain ⟨first, letters, equal, areLetters⟩ := exists_escapeLetters control
    have notQuote : ∀ letter ∈ escapeLetters, letter ≠ '"' := by decide
    have controlNotQuote : c ≠ '"' := by
      rintro rfl
      exact absurd control (by decide)
    rw [isOutside, StringState.next, if_neg controlNotQuote, equal]
    apply foldl_outside
    intro member
    rcases mem_cons.mp member with isSlash | isLetter
    · cases isSlash
    · exact notQuote _ (areLetters _ isLetter) rfl
  · rw [next_control control isOutside]
    exact foldl_of_strictNext (strictNext_escapeControl control isOutside)

theorem foldl_escapeAll (state : StringState) (text : List Char) :
    (escapeAll text).foldl StringState.next state = text.foldl StringState.next state := by
  induction text generalizing state with
  | nil => rfl
  | cons c rest ih =>
    have unfold : escapeAll (c :: rest) =
        (if c.val ≤ 0x1F then escapeControl c else [c]) ++ escapeAll rest := rfl
    have one : (if c.val ≤ 0x1F then escapeControl c else [c]).foldl StringState.next state =
        state.next c := by
      split
      · next control => exact foldl_escapeControl control state
      · rfl
    rw [unfold, foldl_append, one, foldl_cons, ih]

/-- The repairs escape the control characters and close the brackets. -/
theorem exists_variant {value : Value} (outside : text.foldl StringState.next .outside = .outside)
    (parses : safelyParseJson host (String.ofList text) = some value) :
    ∃ body closing, (body = text ∨ body = escapeAll text) ∧
      (∀ c ∈ closing, c ∈ closingChars) ∧
        host.fromStr (String.ofList (body ++ closing)) = some value := by
  have escaped : jsonEscapeControlCharsInString (String.ofList text) =
      String.ofList (escapeAll text) := by
    rw [jsonEscapeControlCharsInString, String.toList_ofList]
    rfl
  obtain ⟨closing, repaired, areClosing⟩ := exists_closing outside
  obtain ⟨escapedClosing, escapedRepaired, escapedAreClosing⟩ :=
    exists_closing ((foldl_escapeAll .outside text).trans outside)
  simp only [safelyParseJson, repaired, escaped, escapedRepaired] at parses
  split at parses
  · next asItIs =>
    refine ⟨text, [], Or.inl rfl, forall_mem_nil _, ?_⟩
    rw [append_nil, asItIs, parses]
  · split at parses
    · next closed => exact ⟨text, closing, Or.inl rfl, areClosing, closed.trans parses⟩
    · split at parses
      · next asEscaped =>
        refine ⟨escapeAll text, [], Or.inr rfl, forall_mem_nil _, ?_⟩
        rw [append_nil, asEscaped, parses]
      · exact ⟨escapeAll text, escapedClosing, Or.inr rfl, escapedAreClosing, parses⟩

theorem mirrored_closing {closing : List Char} (areClosing : ∀ c ∈ closing, c ∈ closingChars) :
    closing.foldlM mirrorNext .outside = some .outside := by
  induction closing with
  | nil => rfl
  | cons c rest ih =>
    have stays : ∀ c ∈ closingChars, StringState.outside.mirrorNext c = some .outside := by
      decide
    obtain ⟨isClosing, restClosing⟩ := forall_mem_cons.mp areClosing
    rw [foldlM_cons, stays c isClosing]
    exact ih restClosing

/-- The keys of an object that is read from a text that begins in a string of a document are
structural. -/
theorem keys_of_safelyParseJson (sound : ParsesTextsOnly host) (keys : KeysAreStrings host)
    (tokens : text.foldlM tokenNext .inside = some last)
    (outside : text.foldl StringState.next .outside = .outside)
    (parses : safelyParseJson host (String.ofList text) = some (.object fields)) :
    ∀ field ∈ fields, ∀ c ∈ field.1.toList, c ∈ structuralChars := by
  have flipped : Flipped .inside .outside := Or.inl ⟨rfl, rfl⟩
  obtain ⟨body, closing, isBody, areClosing, accepted⟩ := exists_variant outside parses
  have clean := clean_of_isText (sound _ _ accepted)
  rw [String.toList_ofList, Clean, foldlM_append] at clean
  obtain ⟨middle, strict, -⟩ := Option.bind_eq_some_iff.mp clean
  have isEscaped : body = escapeAll text := by
    rcases isBody with rfl | isEscaped
    · exact (escapeAll_eq_self flipped tokens strict).symm
    · exact isEscaped
  rw [isEscaped] at strict accepted
  have isOutside : middle = .outside := by
    rw [← foldl_of_strictNext strict, foldl_escapeAll, outside]
  have mirrored := (mirrored_escapeAll flipped tokens strict).2
  apply keys_structural keys accepted
  rw [String.toList_ofList, foldlM_append, mirrored, isOutside]
  exact mirrored_closing areClosing

end Obelus.Formats
