import Obelus.Data.Parts
import Obelus.Formats.ToolArguments

/-!
# Messages for Telegram

The events of a parsed text become the small part of HTML that Telegram reads.  The events
that need a parser option which is off are left out.  The start of a list has at most nine
digits, so that its number is a natural number.
-/

namespace Obelus.Gateway.Telegram

inductive Tag
  | paragraph
  | heading
  | blockQuote
  | codeBlock
  | htmlBlock
  | list (start : Option Nat)
  | item
  | table
  | tableHead
  | tableRow
  | tableCell
  | emphasis
  | strong
  | strikethrough
  | link (destUrl : List Char)
  | image (destUrl : List Char)

inductive TagEnd
  | paragraph
  | heading
  | blockQuote
  | codeBlock
  | htmlBlock
  | list
  | item
  | table
  | tableHead
  | tableRow
  | tableCell
  | emphasis
  | strong
  | strikethrough
  | link
  | image

inductive Event
  | start (tag : Tag)
  | stop (tag : TagEnd)
  | text (text : List Char)
  | code (code : List Char)
  | html (html : List Char)
  | inlineHtml (html : List Char)
  | softBreak
  | hardBreak
  | rule

/-- One of the four replacements. -/
def replaceChar (c : Char) (entity : String) (text : List Char) : List Char :=
  text.flatMap fun other => if other = c then entity.toList else [other]

def escapeHtml (text : List Char) : List Char :=
  replaceChar '"' "&quot;" (replaceChar '>' "&gt;" (replaceChar '<' "&lt;"
    (replaceChar '&' "&amp;" text)))

/-- The output so far and the number of the next item. -/
structure Format where
  output : List Char := []
  listNumber : Option Nat := none

namespace Format

def pushStr (text : String) (format : Format) : Format :=
  { format with output := format.output ++ text.toList }

def push (text : List Char) (format : Format) : Format :=
  { format with output := format.output ++ text }

def start (format : Format) : Tag → Format
  | .paragraph => format
  | .heading => format.pushStr "<b>"
  | .strong => format.pushStr "<b>"
  | .emphasis => format.pushStr "<i>"
  | .strikethrough => format.pushStr "<s>"
  | .codeBlock => format.pushStr "<pre><code>"
  | .link destUrl => format.push ("<a href=\"".toList ++ escapeHtml destUrl ++ "\">".toList)
  | .list start => { format with listNumber := start }
  | .item =>
    match format.listNumber with
    | some n =>
      { (format.push ((toString n).toList ++ ". ".toList)) with listNumber := some (n + 1) }
    | none => format.pushStr "• "
  | .blockQuote => format.pushStr "<blockquote>"
  | _ => format

def stop (format : Format) : TagEnd → Format
  | .paragraph => format.pushStr "\n"
  | .heading => format.pushStr "</b>\n"
  | .strong => format.pushStr "</b>"
  | .emphasis => format.pushStr "</i>"
  | .strikethrough => format.pushStr "</s>"
  | .codeBlock => format.pushStr "</code></pre>\n"
  | .link => format.pushStr "</a>"
  | .list => { format with listNumber := none }
  | .item => format.pushStr "\n"
  | .blockQuote => format.pushStr "</blockquote>\n"
  | _ => format

def handle (format : Format) : Event → Format
  | .start tag => format.start tag
  | .stop tag => format.stop tag
  | .text text => format.push (escapeHtml text)
  | .code code => ((format.pushStr "<code>").push (escapeHtml code)).pushStr "</code>"
  | .softBreak => format.pushStr "\n"
  | .hardBreak => format.pushStr "\n"
  | .rule => format.pushStr "———\n"
  | _ => format

end Format

/-- Whether the text behind a `<` begins or ends a code block. -/
def entersPre (inPre : Bool) (behind : List Char) : Bool :=
  if inPre then !("/pre".toList.isPrefixOf (behind.take 4))
  else "pre>".toList.isPrefixOf (behind.take 4) || "pre ".toList.isPrefixOf (behind.take 4)

/-- Two line breaks of a run are kept, and all of them in a code block.  `run` counts the line
breaks of the run so far. -/
def collapseFrom (inPre : Bool) (run : Nat) : List Char → List Char
  | [] => []
  | c :: rest =>
    if c = '<' then c :: collapseFrom (entersPre inPre rest) 0 rest
    else if !inPre && c = '\n' then
      if run < 2 then c :: collapseFrom inPre (run + 1) rest
      else collapseFrom inPre (run + 1) rest
    else c :: collapseFrom inPre 0 rest

def collapseNewlines (text : List Char) : List Char :=
  collapseFrom false 0 text

def markdownToTelegramHtml (events : List Event) : List Char :=
  Formats.trim (collapseNewlines (events.foldl Format.handle {}).output)

/-!
## The HTML of Telegram

The grammar of the messages that Telegram reads: characters, entities and elements of a few
kinds.  White space may be taken away from a message.
-/

open List
open Data (Drops)
open Meetings.Validation (isWhitespace)

def telegramTags : List (List Char) :=
  ["b".toList, "i".toList, "s".toList, "pre".toList, "code".toList, "blockquote".toList]

def entities : List (List Char) :=
  ["&amp;".toList, "&lt;".toList, "&gt;".toList, "&quot;".toList]

def isSpecial (c : Char) : Bool :=
  ['<', '>', '&', '"'].contains c

def openTag (tag : List Char) : List Char :=
  '<' :: (tag ++ ['>'])

def closeTag (tag : List Char) : List Char :=
  "</".toList ++ (tag ++ ['>'])

/-- A text in which every special character is an entity. -/
inductive Escaped : List Char → Prop
  | nil : Escaped []
  | char {c : Char} {rest : List Char} : isSpecial c = false → Escaped rest → Escaped (c :: rest)
  | entity {entity rest : List Char} : entity ∈ entities → Escaped rest → Escaped (entity ++ rest)

/-- A message: its elements are nested and of a kind that Telegram reads. -/
inductive Html : List Char → Prop
  | nil : Html []
  | char {c : Char} {rest : List Char} : isSpecial c = false → Html rest → Html (c :: rest)
  | entity {entity rest : List Char} : entity ∈ entities → Html rest → Html (entity ++ rest)
  | element {tag inner rest : List Char} : tag ∈ telegramTags → Html inner → Html rest →
      Html (openTag tag ++ (inner ++ (closeTag tag ++ rest)))
  | link {href inner rest : List Char} : Escaped href → Html inner → Html rest →
      Html ("<a href=\"".toList ++ (href ++ ("\">".toList ++ (inner ++ ("</a>".toList ++ rest)))))

variable {first second text tag entity kept rest : List Char} {c : Char}

theorem Html.append (left : Html first) (right : Html second) : Html (first ++ second) := by
  induction left with
  | nil => exact right
  | char plain _ ih => exact Html.char plain ih
  | entity isEntity _ ih =>
    rw [append_assoc]
    exact Html.entity isEntity ih
  | element isTag inside _ _ ih =>
    simp only [append_assoc]
    exact Html.element isTag inside ih
  | link isHref inside _ _ ih =>
    simp only [append_assoc]
    exact Html.link isHref inside ih

theorem Escaped.append (left : Escaped first) (right : Escaped second) :
    Escaped (first ++ second) := by
  induction left with
  | nil => exact right
  | char plain _ ih => exact Escaped.char plain ih
  | entity isEntity _ ih =>
    rw [append_assoc]
    exact Escaped.entity isEntity ih

theorem Escaped.html (escaped : Escaped text) : Html text := by
  induction escaped with
  | nil => exact Html.nil
  | char plain _ ih => exact Html.char plain ih
  | entity isEntity _ ih => exact Html.entity isEntity ih

theorem html_of_plain (plain : ∀ c ∈ text, isSpecial c = false) : Html text := by
  induction text with
  | nil => exact Html.nil
  | cons c rest ih =>
    obtain ⟨isPlain, others⟩ := forall_mem_cons.mp plain
    exact Html.char isPlain (ih others)

theorem html_element {inner : List Char} (isTag : tag ∈ telegramTags) (inside : Html inner) :
    Html (openTag tag ++ (inner ++ closeTag tag)) := by
  have whole := Html.element isTag inside Html.nil
  rwa [append_nil] at whole

theorem not_mem_entity (isEntity : entity ∈ entities) : '\n' ∉ entity := by
  revert entity
  decide

theorem not_mem_openTag (isTag : tag ∈ telegramTags) : '\n' ∉ openTag tag := by
  revert tag
  decide

theorem not_mem_closeTag (isTag : tag ∈ telegramTags) : '\n' ∉ closeTag tag := by
  revert tag
  decide

theorem Escaped.drops (escaped : Escaped text) (drops : Drops '\n' text kept) : Escaped kept := by
  induction escaped generalizing kept with
  | nil =>
    cases drops
    exact Escaped.nil
  | char plain _ ih =>
    cases drops with
    | keep _ drops => exact Escaped.char plain (ih drops)
    | drop drops => exact ih drops
  | entity isEntity _ ih =>
    obtain ⟨rest, rfl, dropsRest⟩ := Drops.exists_of_append (not_mem_entity isEntity) drops
    exact Escaped.entity isEntity (ih dropsRest)

theorem Html.drops (html : Html text) (drops : Drops '\n' text kept) : Html kept := by
  induction html generalizing kept with
  | nil =>
    cases drops
    exact Html.nil
  | char plain _ ih =>
    cases drops with
    | keep _ drops => exact Html.char plain (ih drops)
    | drop drops => exact ih drops
  | entity isEntity _ ih =>
    obtain ⟨rest, rfl, dropsRest⟩ := Drops.exists_of_append (not_mem_entity isEntity) drops
    exact Html.entity isEntity (ih dropsRest)
  | element isTag _ _ ihInner ihRest =>
    obtain ⟨kept, rfl, behindOpen⟩ := Drops.exists_of_append (not_mem_openTag isTag) drops
    obtain ⟨inner, kept, rfl, dropsInner, behindInner⟩ := Drops.exists_append behindOpen
    obtain ⟨rest, rfl, dropsRest⟩ := Drops.exists_of_append (not_mem_closeTag isTag) behindInner
    exact Html.element isTag (ihInner dropsInner) (ihRest dropsRest)
  | link isHref _ _ ihInner ihRest =>
    obtain ⟨kept, rfl, behindOpen⟩ := Drops.exists_of_append (by decide) drops
    obtain ⟨href, kept, rfl, dropsHref, behindHref⟩ := Drops.exists_append behindOpen
    obtain ⟨kept, rfl, behindQuote⟩ := Drops.exists_of_append (by decide) behindHref
    obtain ⟨inner, kept, rfl, dropsInner, behindInner⟩ := Drops.exists_append behindQuote
    obtain ⟨rest, rfl, dropsRest⟩ := Drops.exists_of_append (by decide) behindInner
    exact Html.link (isHref.drops dropsHref) (ihInner dropsInner) (ihRest dropsRest)

theorem isWhitespace_not_special (white : isWhitespace c = true) :
    c ≠ '<' ∧ c ≠ '>' ∧ c ≠ '&' ∧ c ≠ ';' := by
  refine ⟨?_, ?_, ?_, ?_⟩ <;>
  · rintro rfl
    exact absurd white (by decide)

theorem head?_entity (isEntity : entity ∈ entities) : ∃ rest, entity = '&' :: rest := by
  simp only [entities, mem_cons, not_mem_nil, or_false] at isEntity
  rcases isEntity with rfl | rfl | rfl | rfl
  · exact ⟨_, rfl⟩
  · exact ⟨_, rfl⟩
  · exact ⟨_, rfl⟩
  · exact ⟨_, rfl⟩

theorem Html.tail (white : isWhitespace c = true) (html : Html (c :: rest)) : Html rest := by
  obtain ⟨notOpen, -, notEntity, -⟩ := isWhitespace_not_special white
  generalize isText : c :: rest = text at html
  cases html with
  | nil => cases isText
  | char _ html =>
    cases isText
    exact html
  | entity isEntity _ =>
    obtain ⟨behind, rfl⟩ := head?_entity isEntity
    exact absurd (cons.inj isText).1 notEntity
  | element _ _ _ => exact absurd (cons.inj isText).1 notOpen
  | link _ _ _ => exact absurd (cons.inj isText).1 notOpen

theorem Html.dropWhile (html : Html text) : Html (text.dropWhile isWhitespace) := by
  induction text with
  | nil => exact html
  | cons c rest ih =>
    rw [dropWhile_cons]
    split
    · next white => exact ih (html.tail white)
    · exact html

/-- A part that ends with another character does not reach the end. -/
theorem exists_of_append_eq_snoc {front : List Char} {last : Char}
    (isLast : front.getLast? = some last) (differ : last ≠ c) (equal : text ++ [c] = front ++ rest)
    : ∃ behind, rest = behind ++ [c] ∧ text = front ++ behind := by
  rcases eq_nil_or_concat rest with rfl | ⟨behind, other, rfl⟩
  · rw [append_nil] at equal
    rw [← equal, getLast?_concat] at isLast
    exact absurd (Option.some.inj isLast).symm differ
  · rw [concat_eq_append, ← append_assoc] at equal
    obtain ⟨rfl, same⟩ := append_inj' equal rfl
    rw [concat_eq_append, (cons.inj same).1]
    exact ⟨behind, rfl, rfl⟩

theorem getLast?_entity (isEntity : entity ∈ entities) : entity.getLast? = some ';' := by
  revert entity
  decide

theorem getLast?_closeTag (front tag : List Char) :
    (front ++ closeTag tag).getLast? = some '>' := by
  rw [closeTag, ← append_assoc, ← append_assoc, getLast?_concat]

theorem Html.dropLast (white : isWhitespace c = true) (html : Html (text ++ [c])) : Html text := by
  obtain ⟨-, notClose, -, notEnd⟩ := isWhitespace_not_special white
  generalize isWhole : text ++ [c] = whole at html
  induction html generalizing text with
  | nil => exact absurd isWhole (by simp)
  | @char first rest plain html ih =>
    cases text with
    | nil => exact Html.nil
    | cons other text =>
      obtain ⟨rfl, isRest⟩ := cons.inj isWhole
      exact Html.char plain (ih isRest)
  | entity isEntity _ ih =>
    obtain ⟨behind, isRest, rfl⟩ :=
      exists_of_append_eq_snoc (getLast?_entity isEntity) (Ne.symm notEnd) isWhole
    exact Html.entity isEntity (ih isRest.symm)
  | @element tag inner rest isTag inside _ _ ih =>
    simp only [← append_assoc] at isWhole
    obtain ⟨behind, isRest, rfl⟩ :=
      exists_of_append_eq_snoc (getLast?_closeTag (openTag tag ++ inner) tag)
        (Ne.symm notClose) isWhole
    simp only [append_assoc]
    exact Html.element isTag inside (ih isRest.symm)
  | @link href inner rest isHref inside _ _ ih =>
    simp only [← append_assoc] at isWhole
    obtain ⟨behind, isRest, rfl⟩ :=
      exists_of_append_eq_snoc (getLast?_closeTag _ ['a']) (Ne.symm notClose) isWhole
    simp only [append_assoc]
    exact Html.link isHref inside (ih isRest.symm)

theorem Html.rdropWhile (html : Html text) : Html (text.rdropWhile isWhitespace) := by
  induction text using reverseRecOn with
  | nil => exact html
  | append_singleton text c ih =>
    rw [rdropWhile_concat]
    split
    · next white => exact ih (html.dropLast white)
    · exact html

/-- A message stays one when white space at its ends is taken away. -/
theorem Html.trim (html : Html text) : Html (Formats.trim text) :=
  html.dropWhile.rdropWhile

/-!
## What a message shows

The events of a parser are those of a forest of elements.  A message shows the forest: its
texts in their order between the markup, with at most two line breaks in a row, and without
white space at its ends.  One number serves for all lists, so that the items behind a nested
list have labels of which nothing is said.
-/

/-- The end of an element. -/
def Tag.stop : Tag → TagEnd
  | .paragraph => .paragraph
  | .heading => .heading
  | .blockQuote => .blockQuote
  | .codeBlock => .codeBlock
  | .htmlBlock => .htmlBlock
  | .list _ => .list
  | .item => .item
  | .table => .table
  | .tableHead => .tableHead
  | .tableRow => .tableRow
  | .tableCell => .tableCell
  | .emphasis => .emphasis
  | .strong => .strong
  | .strikethrough => .strikethrough
  | .link _ => .link
  | .image _ => .image

/-- Code blocks have texts only, lists have items only, and items stand in lists only. -/
def Tag.encloses : Tag → Bool
  | .codeBlock => false
  | .list _ => false
  | .item => false
  | _ => true

def Event.stands : Event → Bool
  | .html _ => true
  | .inlineHtml _ => true
  | .softBreak => true
  | .hardBreak => true
  | .rule => true
  | _ => false

inductive ForestKind
  | blocks
  | items

/-- Well-nested events. -/
inductive Forest : ForestKind → Type
  | nil {kind : ForestKind} : Forest kind
  | text (text : List Char) (rest : Forest .blocks) : Forest .blocks
  | code (code : List Char) (rest : Forest .blocks) : Forest .blocks
  | leaf (event : Event) (stands : event.stands = true) (rest : Forest .blocks) : Forest .blocks
  | element (tag : Tag) (encloses : tag.encloses = true) (inner rest : Forest .blocks) :
      Forest .blocks
  | codeBlock (texts : List (List Char)) (rest : Forest .blocks) : Forest .blocks
  | list (start : Option Nat) (items : Forest .items) (rest : Forest .blocks) : Forest .blocks
  | item (inner : Forest .blocks) (rest : Forest .items) : Forest .items

namespace Forest

def events {kind : ForestKind} : Forest kind → List Event
  | .nil => []
  | .text content rest => .text content :: rest.events
  | .code content rest => .code content :: rest.events
  | .leaf event _ rest => event :: rest.events
  | .element tag _ inner rest => .start tag :: (inner.events ++ .stop tag.stop :: rest.events)
  | .codeBlock texts rest =>
    .start .codeBlock :: (texts.map Event.text ++ .stop .codeBlock :: rest.events)
  | .list start items rest => .start (.list start) :: (items.events ++ .stop .list :: rest.events)
  | .item inner rest => .start .item :: (inner.events ++ .stop .item :: rest.events)

def hasList {kind : ForestKind} : Forest kind → Bool
  | .nil => false
  | .text _ rest => rest.hasList
  | .code _ rest => rest.hasList
  | .leaf _ _ rest => rest.hasList
  | .element _ _ inner rest => inner.hasList || rest.hasList
  | .codeBlock _ rest => rest.hasList
  | .list _ _ _ => true
  | .item inner rest => inner.hasList || rest.hasList

end Forest

/-- A part of a message: markup, a text, or a text of a code block. -/
inductive Piece
  | markup (text : List Char)
  | text (text : List Char)
  | codeText (text : List Char)

/-- A character, and whether it is in a code block. -/
abbrev Placed := Char × Bool

def outside (text : List Char) : List Placed :=
  text.map fun c => (c, false)

def lineBreak : Placed :=
  ('\n', false)

namespace Piece

def chars : Piece → List Char
  | .markup content => content
  | .text content => content
  | .codeText content => content

def placed : Piece → List Placed
  | .markup content => outside content
  | .text content => outside content
  | .codeText content => content.map fun c => (c, true)

end Piece

def opening : Tag → List Char
  | .heading => "<b>".toList
  | .strong => "<b>".toList
  | .emphasis => "<i>".toList
  | .strikethrough => "<s>".toList
  | .link destUrl => "<a href=\"".toList ++ escapeHtml destUrl ++ "\">".toList
  | .blockQuote => "<blockquote>".toList
  | _ => []

def closing : Tag → List Char
  | .paragraph => "\n".toList
  | .heading => "</b>\n".toList
  | .strong => "</b>".toList
  | .emphasis => "</i>".toList
  | .strikethrough => "</s>".toList
  | .link _ => "</a>".toList
  | .blockQuote => "</blockquote>\n".toList
  | _ => []

def standing : Event → List Char
  | .softBreak => "\n".toList
  | .hardBreak => "\n".toList
  | .rule => "———\n".toList
  | _ => []

/-- The number of an item, or a bullet. -/
def labelOf : Option Nat → List Char
  | some n => (toString n).toList ++ ". ".toList
  | none => "• ".toList

/-- What is expected of an item: the label for a number or a bullet, or any label. -/
abbrev Expected := Option (Option Nat)

def Expected.Allows (expected : Expected) (label : List Char) : Prop :=
  ∃ number, label = labelOf number ∧ ∀ known ∈ expected, number = known

/-- The item behind one with another list may have any label. -/
def Expected.behind (expected : Expected) (inner : Forest .blocks) : Expected :=
  if inner.hasList then none else expected.map (Option.map Nat.succ)

/-- The pieces that show a forest, in the order of its events. -/
inductive Renders : {kind : ForestKind} → Expected → Forest kind → List Piece → Prop
  | nil {kind : ForestKind} {expected : Expected} : Renders expected (.nil : Forest kind) []
  | text {expected : Expected} {text : List Char} {rest : Forest .blocks} {pieces : List Piece} :
      Renders expected rest pieces →
      Renders expected (.text text rest) (.text (escapeHtml text) :: pieces)
  | code {expected : Expected} {code : List Char} {rest : Forest .blocks} {pieces : List Piece} :
      Renders expected rest pieces →
      Renders expected (.code code rest)
        (.markup "<code>".toList :: .text (escapeHtml code) :: .markup "</code>".toList :: pieces)
  | leaf {expected : Expected} {event : Event} {stands : event.stands = true}
      {rest : Forest .blocks} {pieces : List Piece} :
      Renders expected rest pieces →
      Renders expected (.leaf event stands rest) (.markup (standing event) :: pieces)
  | element {expected : Expected} {tag : Tag} {encloses : tag.encloses = true}
      {inner rest : Forest .blocks} {first second : List Piece} :
      Renders none inner first → Renders expected rest second →
      Renders expected (.element tag encloses inner rest)
        (.markup (opening tag) :: (first ++ .markup (closing tag) :: second))
  | codeBlock {expected : Expected} {texts : List (List Char)} {rest : Forest .blocks}
      {pieces : List Piece} :
      Renders expected rest pieces →
      Renders expected (.codeBlock texts rest)
        (.markup "<pre><code>".toList :: (texts.map (fun text => .codeText (escapeHtml text)) ++
          .markup "</code></pre>\n".toList :: pieces))
  | list {expected : Expected} {start : Option Nat} {items : Forest .items}
      {rest : Forest .blocks} {first second : List Piece} :
      Renders (some start) items first → Renders expected rest second →
      Renders expected (.list start items rest) (first ++ second)
  | item {expected : Expected} {label : List Char} {inner : Forest .blocks}
      {rest : Forest .items} {first second : List Piece} :
      expected.Allows label → Renders none inner first →
      Renders (expected.behind inner) rest second →
      Renders expected (.item inner rest)
        (.markup label :: (first ++ .markup "\n".toList :: second))

/-- What is kept behind some characters, of which the last one comes first: all but the line
breaks outside of code blocks that have two others right before them. -/
inductive Squeezed : List Placed → List Placed → List Placed → Prop
  | nil {before : List Placed} : Squeezed before [] []
  | keep {before whole kept : List Placed} {c : Placed} :
      ¬(c = lineBreak ∧ [lineBreak, lineBreak] <+: before) →
      Squeezed (c :: before) whole kept → Squeezed before (c :: whole) (c :: kept)
  | drop {before whole kept : List Placed} : [lineBreak, lineBreak] <+: before →
      Squeezed (lineBreak :: before) whole kept → Squeezed before (lineBreak :: whole) kept

/-- A message that shows the pieces of a forest: all that is kept of them, without some white
space at the ends. -/
structure Shows (forest : Forest .blocks) (message : List Char) : Prop where
  html : Html message
  pieces : ∃ pieces kept front back, Renders none forest pieces ∧
    Squeezed [] (pieces.flatMap Piece.placed) kept ∧
    kept.map Prod.fst = front ++ (message ++ back) ∧
    (∀ c ∈ front ++ back, isWhitespace c = true) ∧
    ¬[lineBreak, lineBreak, lineBreak] <:+: kept

end Obelus.Gateway.Telegram
