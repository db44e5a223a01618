import Obelus.Data.JsonText
import Obelus.Data.Text
import Obelus.Gateway.TelegramMessage

/-!
# Messages show their events

The output for the events of a forest consists of its pieces, the pieces form a message, and
the pass over line breaks leaves all of a code block and two line breaks of every other run.
-/

namespace Obelus.Gateway.Telegram

open Data (Drops)
open Data.ListDecide List
open Meetings.Validation (isWhitespace)
open Format (handle push pushStr)
open Piece (chars)

theorem escapeHtml_append (first second : List Char) :
    escapeHtml (first ++ second) = escapeHtml first ++ escapeHtml second := by
  simp [escapeHtml, replaceChar]

theorem escaped_escapeHtml_singleton (c : Char) : Escaped (escapeHtml [c]) := by
  by_cases isSpecial : c = '&' ∨ c = '<' ∨ c = '>' ∨ c = '"'
  · rcases isSpecial with rfl | rfl | rfl | rfl
    · exact @Escaped.entity "&amp;".toList [] (by decide) Escaped.nil
    · exact @Escaped.entity "&lt;".toList [] (by decide) Escaped.nil
    · exact @Escaped.entity "&gt;".toList [] (by decide) Escaped.nil
    · exact @Escaped.entity "&quot;".toList [] (by decide) Escaped.nil
  · obtain ⟨notAnd, notLess, notGreater, notQuote⟩ := by simpa only [not_or] using isSpecial
    have stays : escapeHtml [c] = [c] := by
      simp [escapeHtml, replaceChar, notAnd, notLess, notGreater, notQuote]
    rw [stays]
    apply Escaped.char _ Escaped.nil
    simp [Telegram.isSpecial, notAnd, notLess, notGreater, notQuote]

theorem escaped_escapeHtml (text : List Char) : Escaped (escapeHtml text) := by
  induction text with
  | nil => exact Escaped.nil
  | cons c rest ih =>
    rw [← singleton_append, escapeHtml_append]
    exact (escaped_escapeHtml_singleton c).append ih

theorem not_mem_less_entity {entity : List Char} (isEntity : entity ∈ entities) : '<' ∉ entity := by
  revert entity
  decide

variable {text inner : List Char} {tag : Tag} {kind : ForestKind} {expected : Expected}
  {forest : Forest kind} {pieces : List Piece}

theorem Escaped.not_mem_less (escaped : Escaped text) : '<' ∉ text := by
  induction escaped with
  | nil => exact not_mem_nil
  | char plain _ ih =>
    intro member
    rcases mem_cons.mp member with rfl | later
    · exact absurd plain (by decide)
    · exact ih later
  | @entity entity rest isEntity _ ih =>
    intro member
    rcases mem_append.mp member with here | later
    · exact not_mem_less_entity isEntity here
    · exact ih later

variable (format : Format) (texts : List (List Char))

theorem push_nil : format.push [] = format := by
  rw [push, append_nil]

theorem start_of_encloses (encloses : tag.encloses = true) (format : Format) :
    format.start tag = format.push (opening tag) := by
  cases tag with
  | codeBlock => cases encloses
  | list start => cases encloses
  | item => cases encloses
  | heading => rfl
  | strong => rfl
  | emphasis => rfl
  | strikethrough => rfl
  | link destUrl => rfl
  | blockQuote => rfl
  | _ => exact (push_nil format).symm

theorem stop_of_encloses (encloses : tag.encloses = true) (format : Format) :
    format.stop tag.stop = format.push (closing tag) := by
  cases tag with
  | codeBlock => cases encloses
  | list start => cases encloses
  | item => cases encloses
  | paragraph => rfl
  | heading => rfl
  | strong => rfl
  | emphasis => rfl
  | strikethrough => rfl
  | link destUrl => rfl
  | blockQuote => rfl
  | _ => exact (push_nil format).symm

theorem handle_of_stands {event : Event} (stands : event.stands = true) (format : Format) :
    format.handle event = format.push (standing event) := by
  cases event with
  | start tag => cases stands
  | stop tag => cases stands
  | text content => cases stands
  | code content => cases stands
  | softBreak => rfl
  | hardBreak => rfl
  | rule => rfl
  | html content => exact (push_nil format).symm
  | inlineHtml content => exact (push_nil format).symm

theorem start_item : format.start .item =
      { output := format.output ++ labelOf format.listNumber
        listNumber := format.listNumber.map Nat.succ } := by
  rcases format with ⟨output, _ | number⟩
  · rfl
  · rfl

theorem foldl_texts (format : Format) : (texts.map Event.text).foldl handle format =
      format.push
        ((texts.map fun text => Piece.codeText (escapeHtml text)).flatMap chars) := by
  induction texts generalizing format with
  | nil => simp [push]
  | cons text rest ih =>
    rw [map_cons, foldl_cons, ih]
    simp [handle, push, chars]

/-- What the events of a forest do: they show it, and the number of the next item changes only
where there is a list. -/
structure Handled {kind : ForestKind} (expected : Expected) (forest : Forest kind)
    (format format' : Format) : Prop where
  renders : ∃ pieces, Renders expected forest pieces ∧
    format'.output = format.output ++ pieces.flatMap chars
  number : kind = .blocks → forest.hasList = false → format'.listNumber = format.listNumber

theorem handled_events (forest : Forest kind) (expected : Expected) (format : Format)
    (agrees : kind = .items → ∀ known ∈ expected, format.listNumber = known) :
    Handled expected forest format (forest.events.foldl handle format) := by
  induction forest generalizing expected format with
  | nil => exact ⟨⟨[], Renders.nil, by simp [Forest.events]⟩, fun _ _ => rfl⟩
  | text content rest ih =>
    obtain ⟨⟨pieces, renders, output⟩, number⟩ := ih expected _ (by nofun)
    refine ⟨⟨_, Renders.text renders, ?_⟩, number⟩
    rw [Forest.events, foldl_cons, output]
    simp only [handle, push, flatMap_cons, chars, append_assoc]
  | code content rest ih =>
    obtain ⟨⟨pieces, renders, output⟩, number⟩ := ih expected _ (by nofun)
    refine ⟨⟨_, Renders.code renders, ?_⟩, number⟩
    rw [Forest.events, foldl_cons, output]
    simp only [handle, push, pushStr, flatMap_cons, chars, append_assoc]
  | leaf event stands rest ih =>
    obtain ⟨⟨pieces, renders, output⟩, number⟩ :=
      ih expected (format.push (standing event)) (by nofun)
    rw [Forest.events, foldl_cons, handle_of_stands stands]
    refine ⟨⟨_, Renders.leaf renders, ?_⟩, number⟩
    rw [output]
    simp [push, chars]
  | element tag encloses inner rest ihInner ihRest =>
    rw [Forest.events, foldl_cons, foldl_append, foldl_cons]
    simp only [handle, start_of_encloses encloses, stop_of_encloses encloses]
    obtain ⟨⟨first, rendersInner, outputInner⟩, numberInner⟩ :=
      ihInner none (format.push (opening tag)) (by nofun)
    generalize inner.events.foldl handle (format.push (opening tag)) = inside at *
    obtain ⟨⟨second, rendersRest, outputRest⟩, numberRest⟩ :=
      ihRest expected (inside.push (closing tag)) (by nofun)
    refine ⟨⟨_, Renders.element rendersInner rendersRest, ?_⟩, ?_⟩
    · rw [outputRest]
      simp only [push, outputInner, flatMap_cons, flatMap_append, chars, append_assoc]
    · intro isBlocks hasNone
      obtain ⟨noneInside, noneBehind⟩ := Bool.or_eq_false_iff.mp hasNone
      exact (numberRest rfl noneBehind).trans (numberInner rfl noneInside)
  | codeBlock texts rest ih =>
    rw [Forest.events, foldl_cons, foldl_append, foldl_cons, foldl_texts]
    simp only [handle, Format.start, Format.stop]
    obtain ⟨⟨pieces, renders, output⟩, number⟩ := ih expected
      (((format.pushStr "<pre><code>").push
        ((texts.map fun text => Piece.codeText (escapeHtml text)).flatMap chars)).pushStr
          "</code></pre>\n") (by nofun)
    refine ⟨⟨_, Renders.codeBlock renders, ?_⟩, number⟩
    rw [output]
    simp only [push, pushStr, flatMap_cons, flatMap_append, chars, append_assoc]
  | list start items rest ihItems ihRest =>
    rw [Forest.events, foldl_cons, foldl_append, foldl_cons]
    simp only [handle, Format.start, Format.stop]
    obtain ⟨⟨first, rendersItems, outputItems⟩, -⟩ :=
      ihItems (some start) { format with listNumber := start }
        (fun _ known isKnown => Option.some.inj isKnown)
    generalize items.events.foldl handle { format with listNumber := start } = inside at *
    obtain ⟨⟨second, rendersRest, outputRest⟩, -⟩ :=
      ihRest expected { inside with listNumber := none } (by nofun)
    refine ⟨⟨_, Renders.list rendersItems rendersRest, ?_⟩, fun _ hasNone => ?_⟩
    · rw [outputRest]
      simp [outputItems]
    · cases hasNone
  | item inner rest ihInner ihRest =>
    rw [Forest.events, foldl_cons, foldl_append, foldl_cons]
    simp only [handle, start_item, Format.stop]
    obtain ⟨⟨first, rendersInner, outputInner⟩, numberInner⟩ := ihInner none
      { output := format.output ++ labelOf format.listNumber
        listNumber := format.listNumber.map Nat.succ } (by nofun)
    generalize inner.events.foldl handle
      { output := format.output ++ labelOf format.listNumber
        listNumber := format.listNumber.map Nat.succ } = inside at *
    -- the number behind the item is that of the item, unless there is a list in it
    have agreesBehind : ∀ known ∈ expected.behind inner, inside.listNumber = known := by
      intro known isKnown
      rw [Expected.behind] at isKnown
      split at isKnown
      · cases isKnown
      · next hasNone =>
        obtain ⟨number, isNumber, rfl⟩ := Option.mem_map.mp isKnown
        rw [numberInner rfl (by simpa using hasNone), agrees rfl number isNumber]
    obtain ⟨⟨second, rendersRest, outputRest⟩, -⟩ :=
      ihRest (expected.behind inner) (inside.pushStr "\n") (fun _ => agreesBehind)
    refine ⟨⟨_, Renders.item ⟨_, rfl, agrees rfl⟩ rendersInner rendersRest, ?_⟩, by nofun⟩
    rw [outputRest]
    simp only [pushStr, outputInner, flatMap_cons, flatMap_append, chars, append_assoc]

theorem digit_not_special {c : Char} (digit : c.isDigit = true) : isSpecial c = false := by
  have noDigit : ∀ special ∈ ['<', '>', '&', '"'], special.isDigit ≠ true := by decide
  rw [isSpecial, contains_eq_mem, decide_eq_false_iff_not]
  exact fun member => noDigit c member digit

theorem labelOf_not_special (number : Option Nat) : ∀ c ∈ labelOf number, isSpecial c = false := by
  cases number with
  | none => decide
  | some n =>
    intro c member
    have notSpecial : ∀ other ∈ ". ".toList, isSpecial other = false := by decide
    rcases mem_append.mp member with isDigit | isDot
    · apply digit_not_special
      rw [Nat.toString_eq_ofList_toDigits, String.toList_ofList] at isDigit
      exact Nat.isDigit_of_mem_toDigits (by decide) (by decide) isDigit
    · exact notSpecial c isDot

theorem html_lineBreak : Html "\n".toList :=
  Html.char (by decide) Html.nil

theorem html_bare (inside : Html inner) : Html ([] ++ (inner ++ [])) := by
  rwa [append_nil]

/-- What stands around an inner message in an element. -/
theorem html_opening_closing (tag : Tag) (inside : Html inner) :
    Html (opening tag ++ (inner ++ closing tag)) := by
  cases tag with
  | heading =>
    have whole := (html_element (show "b".toList ∈ telegramTags by decide) inside).append
      html_lineBreak
    simp only [append_assoc] at whole
    exact whole
  | strong => exact html_element (show "b".toList ∈ telegramTags by decide) inside
  | emphasis => exact html_element (show "i".toList ∈ telegramTags by decide) inside
  | strikethrough => exact html_element (show "s".toList ∈ telegramTags by decide) inside
  | link destUrl =>
    have whole := Html.link (escaped_escapeHtml destUrl) inside Html.nil
    simp only [← append_assoc, append_nil] at whole
    rw [← append_assoc]
    exact whole
  | blockQuote =>
    have whole := (html_element (show "blockquote".toList ∈ telegramTags by decide) inside).append
      html_lineBreak
    simp only [append_assoc] at whole
    exact whole
  | paragraph =>
    exact inside.append html_lineBreak
  | _ => exact html_bare inside

theorem html_texts :
    Html ((texts.map fun text => Piece.codeText (escapeHtml text)).flatMap chars) := by
  induction texts with
  | nil => exact Html.nil
  | cons text rest ih => exact (escaped_escapeHtml text).html.append ih

theorem html_codeBlock (inside : Html inner) :
    Html ("<pre><code>".toList ++ (inner ++ "</code></pre>\n".toList)) := by
  have code := html_element (show "code".toList ∈ telegramTags by decide) inside
  have pre := html_element (show "pre".toList ∈ telegramTags by decide) code
  have whole := pre.append html_lineBreak
  simp only [append_assoc] at whole
  exact whole

theorem standing_not_special (event : Event) : ∀ c ∈ standing event, isSpecial c = false := by
  cases event with
  | softBreak => decide
  | hardBreak => decide
  | rule => decide
  | _ => exact fun _ member => absurd member not_mem_nil

theorem html_of_renders (renders : Renders expected forest pieces) :
    Html (pieces.flatMap chars) := by
  induction renders with
  | nil => exact Html.nil
  | text _ ih => exact (escaped_escapeHtml _).html.append ih
  | @code _ content _ _ _ ih =>
    have code := html_element (show "code".toList ∈ telegramTags by decide)
      (escaped_escapeHtml content).html
    have whole := code.append ih
    simp only [append_assoc] at whole
    exact whole
  | @leaf _ event _ _ _ _ ih => exact (html_of_plain (standing_not_special event)).append ih
  | @element _ tag _ _ _ _ _ _ _ ihInner ihRest =>
    have whole := (html_opening_closing tag ihInner).append ihRest
    rw [flatMap_cons, flatMap_append]
    simp only [append_assoc] at whole
    exact whole
  | @codeBlock _ texts _ _ _ ih =>
    have whole := (html_codeBlock (html_texts texts)).append ih
    rw [flatMap_cons, flatMap_append]
    simp only [append_assoc] at whole
    exact whole
  | list _ _ ihItems ihRest =>
    rw [flatMap_append]
    exact ihItems.append ihRest
  | item allows _ _ ihInner ihRest =>
    obtain ⟨number, rfl, -⟩ := allows
    rw [flatMap_cons, flatMap_append]
    exact (html_of_plain (labelOf_not_special number)).append
      (ihInner.append (html_lineBreak.append ihRest))

/-- The line breaks right behind some characters, the last of which comes first. -/
def breaks (before : List Placed) : Nat :=
  (before.takeWhile (· = lineBreak)).length

variable {before whole kept : List Placed} {c : Placed}

theorem breaks_cons : breaks (c :: before) = if c = lineBreak then breaks before + 1 else 0 := by
  by_cases isBreak : c = lineBreak
  · simp [breaks, isBreak]
  · simp [breaks, isBreak]

theorem le_breaks_iff {n : Nat} : n ≤ breaks before ↔ replicate n lineBreak <+: before := by
  induction n generalizing before with
  | zero => simp
  | succ n ih =>
    cases before with
    | nil => simp [breaks]
    | cons c rest =>
      rw [breaks_cons, replicate_succ, cons_prefix_cons, ← ih]
      split
      · next isBreak => simp [isBreak]
      · next notBreak => simp [Ne.symm notBreak]

theorem two_le_breaks_iff : 2 ≤ breaks before ↔ [lineBreak, lineBreak] <+: before :=
  le_breaks_iff

namespace Squeezed

theorem append {first second : List Placed} {keptFirst keptSecond : List Placed}
    (left : Squeezed before first keptFirst)
    (right : Squeezed (first.reverse ++ before) second keptSecond) :
    Squeezed before (first ++ second) (keptFirst ++ keptSecond) := by
  induction left with
  | nil => exact right
  | keep allowed _ ih => exact keep allowed (ih (by simpa using right))
  | drop two _ ih => exact drop two (ih (by simpa using right))

theorem of_not_mem (absent : lineBreak ∉ whole) (before : List Placed) :
    Squeezed before whole whole := by
  induction whole generalizing before with
  | nil => exact nil
  | cons c rest ih =>
    obtain ⟨other, others⟩ := not_or.mp (mt mem_cons.mpr absent)
    exact keep (fun both => other both.1.symm) (ih others _)

theorem drops (squeezed : Squeezed before whole kept) :
    Drops '\n' (whole.map Prod.fst) (kept.map Prod.fst) := by
  induction squeezed with
  | nil => exact Drops.nil
  | keep _ _ ih => exact Drops.keep _ ih
  | drop _ _ ih => exact Drops.drop ih

/-- At most two line breaks follow one another in what is kept, also with those in front of it. -/
theorem few (squeezed : Squeezed before whole kept) : breaks kept + min 2 (breaks before) ≤ 2 ∧
      ¬[lineBreak, lineBreak, lineBreak] <:+: kept := by
  induction squeezed with
  | nil => exact ⟨by simp [breaks], by simp⟩
  | @keep before whole kept c allowed _ ih =>
    obtain ⟨fewBehind, noneBehind⟩ := ih
    have fewHere : breaks (c :: kept) + min 2 (breaks before) ≤ 2 := by
      rw [breaks_cons] at fewBehind ⊢
      split
      · next isBreak =>
        have room : ¬2 ≤ breaks before := fun two => allowed ⟨isBreak, two_le_breaks_iff.mp two⟩
        rw [if_pos isBreak] at fewBehind
        omega
      · omega
    refine ⟨fewHere, fun isInfix => ?_⟩
    rcases infix_cons_iff.mp isInfix with isFirst | later
    · have three : 3 ≤ breaks (c :: kept) := le_breaks_iff.mpr isFirst
      omega
    · exact noneBehind later
  | @drop before whole kept two _ ih =>
    obtain ⟨fewBehind, noneBehind⟩ := ih
    have many := two_le_breaks_iff.mpr two
    rw [breaks_cons, if_pos rfl] at fewBehind
    exact ⟨by omega, noneBehind⟩

end Squeezed

/-- What the pass keeps of some pieces, behind other characters outside of code blocks. -/
structure Collapses (before placed : List Placed) (text : List Char) (kept : List Placed) :
    Prop where
  squeezed : Squeezed before placed kept
  collapses : ∀ behind, collapseFrom false (breaks before) (text ++ behind) =
    kept.map Prod.fst ++ collapseFrom false (breaks (placed.reverse ++ before)) behind

theorem Collapses.append {first second keptFirst keptSecond : List Placed}
    {textFirst textSecond : List Char} (left : Collapses before first textFirst keptFirst)
    (right : Collapses (first.reverse ++ before) second textSecond keptSecond) :
    Collapses before (first ++ second) (textFirst ++ textSecond) (keptFirst ++ keptSecond) := by
  constructor
  · exact left.squeezed.append right.squeezed
  · intro behind
    rw [append_assoc, left.collapses, right.collapses, map_append, append_assoc, reverse_append,
      append_assoc]

/-- A text in which no code block begins or ends. -/
def Calm (text : List Char) : Prop :=
  ∀ before, ∃ kept, Collapses before (outside text) text kept

theorem calm_nil : Calm [] :=
  fun _ => ⟨[], Squeezed.nil, fun _ => rfl⟩

theorem Calm.append {first second : List Char} (left : Calm first) (right : Calm second) :
    Calm (first ++ second) := by
  intro before
  obtain ⟨keptFirst, collapsesFirst⟩ := left before
  obtain ⟨keptSecond, collapsesSecond⟩ := right ((outside first).reverse ++ before)
  rw [outside, map_append]
  exact ⟨keptFirst ++ keptSecond, collapsesFirst.append collapsesSecond⟩

theorem calm_singleton {c : Char} (notOpen : c ≠ '<') : Calm [c] := by
  intro before
  have placed : outside [c] = [(c, false)] := rfl
  by_cases isBreak : c = '\n'
  · subst isBreak
    have more : breaks (lineBreak :: before) = breaks before + 1 := by
      rw [breaks_cons, if_pos rfl]
    by_cases two : [lineBreak, lineBreak] <+: before
    · refine ⟨[], Squeezed.drop two Squeezed.nil, fun behind => ?_⟩
      have many : ¬breaks before < 2 := not_lt.mpr (two_le_breaks_iff.mpr two)
      rw [placed, reverse_singleton, singleton_append, singleton_append, collapseFrom,
        if_neg notOpen, if_pos (by decide), if_neg many]
      exact congrArg (collapseFrom false · behind) more.symm
    · refine ⟨[lineBreak], Squeezed.keep (fun both => two both.2) Squeezed.nil, fun behind => ?_⟩
      have room : breaks before < 2 := not_le.mp (mt two_le_breaks_iff.mp two)
      rw [placed, reverse_singleton, singleton_append, singleton_append, collapseFrom,
        if_neg notOpen, if_pos (by decide), if_pos room]
      exact congrArg (fun run => '\n' :: collapseFrom false run behind) more.symm
  · have other : (c, false) ≠ lineBreak := fun same => isBreak (congrArg Prod.fst same)
    refine ⟨[(c, false)], Squeezed.keep (fun both => other both.1) Squeezed.nil, fun behind => ?_⟩
    rw [placed, reverse_singleton, singleton_append, singleton_append, collapseFrom,
      if_neg notOpen, if_neg (by simp [isBreak]), breaks_cons, if_neg other]
    rfl

theorem calm_of_not_mem (absent : '<' ∉ text) : Calm text := by
  induction text with
  | nil => exact calm_nil
  | cons c rest ih =>
    have notOpen : c ≠ '<' := fun isOpen => absent (by simp [isOpen])
    have others : '<' ∉ rest := fun member => absent (mem_cons_of_mem _ member)
    exact (calm_singleton notOpen).append (ih others)

theorem map_fst_outside (text : List Char) : (outside text).map Prod.fst = text := by
  rw [outside, map_map]
  exact map_id text

theorem lineBreak_not_mem_outside (absent : '\n' ∉ text) : lineBreak ∉ outside text := by
  intro member
  obtain ⟨c, isMember, isBreak⟩ := mem_map.mp member
  cases isBreak
  exact absent isMember

def calmTags : List (List Char) :=
  ["<b>".toList, "<i>".toList, "<s>".toList, "<blockquote>".toList, "<code>".toList,
    "<a href=\"".toList, "</b>".toList, "</i>".toList, "</s>".toList, "</blockquote>".toList,
    "</code>".toList, "</a>".toList]

/-- Behind a tag a new run begins. -/
theorem calm_of_mem_tags {tag : List Char} (member : tag ∈ calmTags) : Calm tag := by
  intro before
  have absent : '\n' ∉ tag := by
    revert member tag
    decide
  refine ⟨outside tag, Squeezed.of_not_mem (lineBreak_not_mem_outside absent) before,
    fun behind => ?_⟩
  rw [map_fst_outside]
  simp only [calmTags, mem_cons, not_mem_nil, or_false] at member
  rcases member with rfl | rfl | rfl | rfl | rfl | rfl | rfl | rfl | rfl | rfl | rfl | rfl <;> rfl

theorem calm_lineBreak : Calm "\n".toList :=
  calm_of_not_mem (by decide)

theorem calm_opening (tag : Tag) : Calm (opening tag) := by
  cases tag with
  | heading => exact calm_of_mem_tags (show "<b>".toList ∈ calmTags by decide)
  | strong => exact calm_of_mem_tags (show "<b>".toList ∈ calmTags by decide)
  | emphasis => exact calm_of_mem_tags (show "<i>".toList ∈ calmTags by decide)
  | strikethrough => exact calm_of_mem_tags (show "<s>".toList ∈ calmTags by decide)
  | link destUrl =>
    have opens := calm_of_mem_tags (show "<a href=\"".toList ∈ calmTags by decide)
    have href := calm_of_not_mem (escaped_escapeHtml destUrl).not_mem_less
    exact (opens.append href).append (calm_of_not_mem (by decide))
  | blockQuote => exact calm_of_mem_tags (show "<blockquote>".toList ∈ calmTags by decide)
  | _ => exact calm_nil

theorem calm_closing (tag : Tag) : Calm (closing tag) := by
  cases tag with
  | paragraph => exact calm_lineBreak
  | heading =>
    exact (calm_of_mem_tags (show "</b>".toList ∈ calmTags by decide)).append calm_lineBreak
  | strong => exact calm_of_mem_tags (show "</b>".toList ∈ calmTags by decide)
  | emphasis => exact calm_of_mem_tags (show "</i>".toList ∈ calmTags by decide)
  | strikethrough => exact calm_of_mem_tags (show "</s>".toList ∈ calmTags by decide)
  | link destUrl => exact calm_of_mem_tags (show "</a>".toList ∈ calmTags by decide)
  | blockQuote =>
    exact (calm_of_mem_tags (show "</blockquote>".toList ∈ calmTags by decide)).append
      calm_lineBreak
  | _ => exact calm_nil

theorem calm_of_not_special (plain : ∀ c ∈ text, isSpecial c = false) : Calm text :=
  calm_of_not_mem fun member => absurd (plain '<' member) (by decide)

theorem map_fst_placed (pieces : List Piece) :
    (pieces.flatMap Piece.placed).map Prod.fst = pieces.flatMap chars := by
  rw [map_flatMap]
  apply flatMap_congr
  intro piece _
  cases piece with
  | markup content => exact map_fst_outside content
  | text content => exact map_fst_outside content
  | codeText content => simp [Piece.placed, chars, Function.comp_def]

/-- Pieces behind which no code block is open. -/
def Squeezable (pieces : List Piece) : Prop :=
  ∀ before, ∃ kept,
    Collapses before (pieces.flatMap Piece.placed) (pieces.flatMap chars) kept

theorem squeezable_nil : Squeezable [] :=
  fun _ => ⟨[], Squeezed.nil, fun _ => rfl⟩

theorem Squeezable.append {first second : List Piece} (left : Squeezable first)
    (right : Squeezable second) : Squeezable (first ++ second) := by
  intro before
  obtain ⟨keptFirst, collapsesFirst⟩ := left before
  obtain ⟨keptSecond, collapsesSecond⟩ :=
    right ((first.flatMap Piece.placed).reverse ++ before)
  rw [flatMap_append, flatMap_append]
  exact ⟨keptFirst ++ keptSecond, collapsesFirst.append collapsesSecond⟩

theorem squeezable_markup (calm : Calm text) : Squeezable [.markup text] := by
  intro before
  simpa [chars, Piece.placed] using calm before

theorem squeezable_text (calm : Calm text) : Squeezable [.text text] := by
  intro before
  simpa [chars, Piece.placed] using calm before

/-- In a code block a text without tags is kept as it is. -/
theorem collapseFrom_inPre (absent : '<' ∉ text) (behind : List Char) :
    collapseFrom true 0 (text ++ behind) = text ++ collapseFrom true 0 behind := by
  induction text with
  | nil => rfl
  | cons c rest ih =>
    have notOpen : c ≠ '<' := fun isOpen => absent (by simp [isOpen])
    have others : '<' ∉ rest := fun member => absent (mem_cons_of_mem _ member)
    rw [cons_append, collapseFrom, if_neg notOpen, if_neg (by simp), ih others, cons_append]

def codePieces (texts : List (List Char)) : List Piece :=
  texts.map fun text => .codeText (escapeHtml text)

theorem collapseFrom_codePieces (behind : List Char) :
    collapseFrom true 0 ((codePieces texts).flatMap chars ++ behind) =
      (codePieces texts).flatMap chars ++ collapseFrom true 0 behind := by
  induction texts with
  | nil => rfl
  | cons text rest ih =>
    simp only [codePieces, map_cons, flatMap_cons, chars, append_assoc] at ih ⊢
    rw [collapseFrom_inPre (escaped_escapeHtml text).not_mem_less, ih]

theorem placed_codePieces : (codePieces texts).flatMap Piece.placed =
      ((codePieces texts).flatMap chars).map fun c => (c, true) := by
  simp [codePieces, map_flatMap, flatMap_map, Piece.placed, chars]

theorem squeezable_codeBlock : Squeezable (.markup "<pre><code>".toList ::
      (codePieces texts ++ [.markup "</code></pre>\n".toList])) := by
  intro before
  let inner := (codePieces texts).flatMap chars
  let front := outside "<pre><code>".toList ++ inner.map (fun c => (c, true))
  have placed : (Piece.markup "<pre><code>".toList ::
      (codePieces texts ++ [.markup "</code></pre>\n".toList])).flatMap Piece.placed =
      (front ++ outside "</code></pre>".toList) ++ [lineBreak] := by
    rw [flatMap_cons, flatMap_append, placed_codePieces, append_assoc, append_assoc]
    rfl
  have absent : lineBreak ∉ front ++ outside "</code></pre>".toList := by
    have notOpen : lineBreak ∉ outside "<pre><code>".toList := by decide
    have notClose : lineBreak ∉ outside "</code></pre>".toList := by decide
    simp only [front, mem_append, notOpen, notClose]
    simp [lineBreak]
  have behindTag : (front ++ outside "</code></pre>".toList).reverse ++ before =
      ('>', false) :: ((front ++ outside "</code></pre".toList).reverse ++ before) := by
    simp only [reverse_append, append_assoc]
    rfl
  rw [placed]
  refine ⟨_, (Squeezed.of_not_mem absent before).append (Squeezed.keep ?_ Squeezed.nil),
    fun behind => ?_⟩
  · rw [behindTag, cons_prefix_cons]
    exact fun both => absurd both.2.1 (by decide)
  · have enters : ∀ rest, collapseFrom false (breaks before) ("<pre><code>".toList ++ rest) =
        "<pre><code>".toList ++ collapseFrom true 0 rest := fun _ => rfl
    have leaves : ∀ rest, collapseFrom true 0 ("</code></pre>\n".toList ++ rest) =
        "</code></pre>\n".toList ++ collapseFrom false 1 rest := fun _ => rfl
    have oneBreak : breaks (((front ++ outside "</code></pre>".toList) ++ [lineBreak]).reverse ++
        before) = 1 := by
      rw [reverse_append, append_assoc, behindTag]
      rfl
    rw [oneBreak, ← placed, map_fst_placed]
    simp only [flatMap_cons, flatMap_append, flatMap_nil, chars, append_nil, append_assoc]
    rw [enters, collapseFrom_codePieces, leaves]

theorem squeezable_of_renders (renders : Renders expected forest pieces) : Squeezable pieces := by
  induction renders with
  | nil => exact squeezable_nil
  | @text _ content _ _ _ ih =>
    exact (squeezable_text (calm_of_not_mem (escaped_escapeHtml content).not_mem_less)).append ih
  | @code _ content _ _ _ ih =>
    have opens := squeezable_markup (calm_of_mem_tags (show "<code>".toList ∈ calmTags by decide))
    have shown := squeezable_text (calm_of_not_mem (escaped_escapeHtml content).not_mem_less)
    have closes := squeezable_markup (calm_of_mem_tags (show "</code>".toList ∈ calmTags by decide))
    exact opens.append (shown.append (closes.append ih))
  | @leaf _ event _ _ _ _ ih =>
    exact (squeezable_markup (calm_of_not_special (standing_not_special event))).append ih
  | @element _ tag _ _ _ _ _ _ _ ihInner ihRest =>
    exact (squeezable_markup (calm_opening tag)).append
      (ihInner.append ((squeezable_markup (calm_closing tag)).append ihRest))
  | @codeBlock _ texts _ _ _ ih =>
    have whole := (squeezable_codeBlock texts).append ih
    rw [cons_append, append_assoc] at whole
    exact whole
  | list _ _ ihItems ihRest => exact ihItems.append ihRest
  | item allows _ _ ihInner ihRest =>
    obtain ⟨number, rfl, -⟩ := allows
    exact (squeezable_markup (calm_of_not_special (labelOf_not_special number))).append
      (ihInner.append ((squeezable_markup calm_lineBreak).append ihRest))

theorem exists_trim (text : List Char) : ∃ front back,
    text = front ++ (Formats.trim text ++ back) ∧ ∀ c ∈ front ++ back, isWhitespace c = true := by
  refine ⟨text.takeWhile isWhitespace, (text.dropWhile isWhitespace).rtakeWhile isWhitespace,
    ?_, ?_⟩
  · rw [Formats.trim, Formats.trimEnd, Formats.trimStart, rdropWhile_append_rtakeWhile,
      takeWhile_append_dropWhile]
  · intro c member
    rcases mem_append.mp member with isFront | isBack
    · exact mem_takeWhile_imp isFront
    · exact mem_rtakeWhile_imp isBack

/-- The message for the events of a forest shows it. -/
theorem shows_markdownToTelegramHtml (forest : Forest .blocks) :
    Shows forest (markdownToTelegramHtml forest.events) := by
  obtain ⟨pieces, renders, output⟩ := (handled_events forest none {} (by nofun)).renders
  obtain ⟨kept, squeezed, collapses⟩ := squeezable_of_renders renders []
  have isKept : collapseNewlines (forest.events.foldl handle {}).output =
      kept.map Prod.fst := by
    have whole := collapses []
    rw [append_nil, collapseFrom, append_nil] at whole
    rw [output, nil_append]
    exact whole
  have drops := squeezed.drops
  rw [map_fst_placed] at drops
  rw [markdownToTelegramHtml, isKept]
  constructor
  · exact ((html_of_renders renders).drops drops).trim
  · obtain ⟨front, back, isWhole, white⟩ := exists_trim (kept.map Prod.fst)
    exact ⟨pieces, kept, front, back, renders, squeezed, isWhole, white, squeezed.few.2⟩

/-- White space at the beginning of a message is left out. -/
def spacedText : Forest .blocks :=
  .element .paragraph rfl (.text "\u00a0a".toList .nil) .nil

/-- An ordered list of two items, of which the first one has a list. -/
def nestedList : Forest .blocks :=
  .list (some 1)
    (.item (.text "a".toList (.list none (.item (.text "b".toList .nil) .nil) .nil))
      (.item (.text "c".toList .nil) .nil)) .nil

/-- A text that begins with white space is not shown as it is, and the item behind a nested
list has no number. -/
theorem shows_not_whole :
    (¬escapeHtml "\u00a0a".toList <:+: markdownToTelegramHtml spacedText.events) ∧
      markdownToTelegramHtml nestedList.events = "1. a• b\n\n• c".toList := by
  constructor
  · decide
  · decide

end Obelus.Gateway.Telegram
