import Obelus.Data.JsonText
import Obelus.Formats.ToolArguments

/-!
# Arguments that are cut off

The scan that looks for truncation follows the strings and the brackets of a
JSON text.  A complete text leaves it where it began, and no cut of a text closes
more brackets than it opened, so what is cut off inside an object looks
truncated.
-/

namespace Obelus.Formats

open Obelus.Data.ListDecide List
open Obelus.Data.JsonText
open ScanState (scan)

def outsideAt (depth : List Char) : ScanState :=
  { depth }

def insideAt (depth : List Char) : ScanState :=
  { inString := true, depth }

/-- The text leaves the scan where it began, and no cut of it closes a bracket
that it did not open. -/
structure Balanced (text : List Char) : Prop where
  whole : ∀ depth, text.foldlM scan (outsideAt depth) = some (outsideAt depth)
  front : ∀ front, front <+: text → ∀ depth, ∃ state,
    front.foldlM scan (outsideAt depth) = some state ∧ depth <:+ state.depth

theorem prefix_append_cases {α : Type} {front left right : List α}
    (isPrefix : front <+: left ++ right) :
    front <+: left ∨ ∃ more, front = left ++ more ∧ more <+: right := by
  rcases prefix_or_prefix_of_prefix isPrefix (prefix_append left right) with
    inLeft | ⟨more, rfl⟩
  · exact Or.inl inLeft
  · exact Or.inr ⟨more, rfl, (prefix_append_right_inj left).mp isPrefix⟩

variable {c : Char} {body front inner text : List Char}

theorem scan_bare (isBare : c ∈ bareChars) (depth : List Char) :
    (outsideAt depth).scan c = some (outsideAt depth) := by
  have other : ∀ c ∈ bareChars, c ≠ '"' ∧ c ≠ '{' ∧ c ≠ '[' ∧ c ≠ '}' ∧ c ≠ ']' := by decide
  simp [scan, outsideAt, *]

theorem scan_plain (plain : isPlain c) (depth : List Char) :
    (insideAt depth).scan c = some (insideAt depth) := by
  simp [scan, insideAt, plain.2.1, plain.2.2]

/-- The body of a string leaves the scan in the string. -/
theorem scan_body (loose : LooseBody body) (depth : List Char) :
    body.foldlM scan (insideAt depth) = some (insideAt depth) := by
  induction loose with
  | nil => rfl
  | plain plain _ ih =>
    rw [foldlM_cons, scan_plain plain]
    exact ih
  | escape _ _ ih => exact ih

theorem scan_front_body (loose : LooseBody body) (depth : List Char) (isPrefix : front <+: body) :
    ∃ state, front.foldlM scan (insideAt depth) = some state ∧
      state.depth = depth := by
  induction loose generalizing front with
  | nil =>
    cases prefix_nil.mp isPrefix
    exact ⟨insideAt depth, rfl, rfl⟩
  | plain plain _ ih =>
    rcases prefix_cons_iff.mp isPrefix with rfl | ⟨tail, rfl, inRest⟩
    · exact ⟨insideAt depth, rfl, rfl⟩
    · rw [foldlM_cons, scan_plain plain]
      exact ih inRest
  | escape _ _ ih =>
    rcases prefix_cons_iff.mp isPrefix with rfl | ⟨tail, rfl, afterSlash⟩
    · exact ⟨insideAt depth, rfl, rfl⟩
    · rcases prefix_cons_iff.mp afterSlash with rfl | ⟨tail, rfl, inRest⟩
      · exact ⟨_, rfl, rfl⟩
      · have scanned := ih inRest
        exact scanned

theorem balanced_nil : Balanced [] := by
  constructor
  · exact fun _ => rfl
  · intro front isPrefix depth
    cases prefix_nil.mp isPrefix
    exact ⟨outsideAt depth, rfl, suffix_rfl⟩

theorem Balanced.append {left right : List Char} (leftBalanced : Balanced left)
    (rightBalanced : Balanced right) : Balanced (left ++ right) := by
  constructor
  · intro depth
    rw [foldlM_append, leftBalanced.whole]
    exact rightBalanced.whole depth
  · intro front isPrefix depth
    rcases prefix_append_cases isPrefix with inLeft | ⟨more, rfl, inRight⟩
    · exact leftBalanced.front front inLeft depth
    · rw [foldlM_append, leftBalanced.whole]
      exact rightBalanced.front more inRight depth

theorem balanced_bare (isBare : c ∈ bareChars) : Balanced [c] := by
  have whole : ∀ depth, [c].foldlM scan (outsideAt depth) = some (outsideAt depth) := by
    intro depth
    rw [foldlM_cons, scan_bare isBare]
    rfl
  constructor
  · exact whole
  · intro front isPrefix depth
    rcases prefix_cons_iff.mp isPrefix with rfl | ⟨tail, rfl, isNil⟩
    · exact ⟨outsideAt depth, rfl, suffix_rfl⟩
    · cases prefix_nil.mp isNil
      exact ⟨outsideAt depth, whole depth, suffix_rfl⟩

theorem balanced_quoted (isBody : StringBody body) : Balanced (quoted body) := by
  have whole : ∀ depth,
      (quoted body).foldlM scan (outsideAt depth) = some (outsideAt depth) := by
    intro depth
    have inside : (body ++ ['"']).foldlM scan (insideAt depth) =
        some (outsideAt depth) := by
      rw [foldlM_append, scan_body isBody.loose]
      rfl
    exact inside
  constructor
  · exact whole
  · intro front isPrefix depth
    rcases prefix_cons_iff.mp isPrefix with rfl | ⟨tail, rfl, afterQuote⟩
    · exact ⟨outsideAt depth, rfl, suffix_rfl⟩
    · rcases prefix_concat_iff.mp afterQuote with rfl | inBody
      · exact ⟨outsideAt depth, whole depth, suffix_rfl⟩
      · obtain ⟨state, scanned, sameDepth⟩ := scan_front_body isBody.loose depth inBody
        exact ⟨state, scanned, sameDepth ▸ suffix_rfl⟩

/-- Brackets around a balanced text are balanced, and the closing bracket is
awaited until it comes. -/
theorem Balanced.between {opener closer : Char} (balanced : Balanced inner)
    (opens : ∀ depth, (outsideAt depth).scan opener = some (outsideAt (closer :: depth)))
    (closes : ∀ depth, (outsideAt (closer :: depth)).scan closer = some (outsideAt depth)) :
    Balanced (opener :: (inner ++ [closer])) := by
  have whole : ∀ depth, (opener :: (inner ++ [closer])).foldlM scan (outsideAt depth) =
      some (outsideAt depth) := by
    intro depth
    rw [foldlM_cons, opens]
    have inside : (inner ++ [closer]).foldlM scan (outsideAt (closer :: depth)) =
        some (outsideAt depth) := by
      rw [foldlM_append, balanced.whole]
      have last : [closer].foldlM scan (outsideAt (closer :: depth)) =
          some (outsideAt depth) := by
        rw [foldlM_cons, closes]
        rfl
      exact last
    exact inside
  constructor
  · exact whole
  · intro front isPrefix depth
    rcases prefix_cons_iff.mp isPrefix with rfl | ⟨tail, rfl, afterOpener⟩
    · exact ⟨outsideAt depth, rfl, suffix_rfl⟩
    · rcases prefix_concat_iff.mp afterOpener with rfl | inInner
      · exact ⟨outsideAt depth, whole depth, suffix_rfl⟩
      · obtain ⟨state, scanned, deeper⟩ := balanced.front tail inInner (closer :: depth)
        refine ⟨state, ?_, (suffix_cons closer depth).trans deeper⟩
        rw [foldlM_cons, opens]
        exact scanned

theorem composes_balanced : Composes Balanced where
  nil := balanced_nil
  append := Balanced.append
  bare _ := balanced_bare
  string := balanced_quoted
  array balanced := by
    apply balanced.between
    · exact fun _ => rfl
    · simp [scan, outsideAt]
  object balanced := by
    apply balanced.between
    · exact fun _ => rfl
    · simp [scan, outsideAt]

theorem balanced_of_isText (isText : IsText text) : Balanced text :=
  composes_balanced.of_derives isText

open Meetings.Validation (isWhitespace)

def Blank (text : List Char) : Prop :=
  ∀ c ∈ text, isWhitespace c = true

theorem ne_of_isWhitespace {other : Char} (white : isWhitespace c = true)
    (black : isWhitespace other = false) : c ≠ other := by
  rintro rfl
  rw [white] at black
  cases black

/-- White space changes nothing outside a string and ends no string. -/
theorem scan_white (white : isWhitespace c = true) (state : ScanState) :
    ∃ next, state.scan c = some next ∧ next.inString = state.inString ∧
      (state.inString = false → next = state) := by
  have notQuote := ne_of_isWhitespace white (show isWhitespace '"' = false by decide)
  have notSlash := ne_of_isWhitespace white (show isWhitespace '\\' = false by decide)
  have notBrace := ne_of_isWhitespace white (show isWhitespace '{' = false by decide)
  have notBracket := ne_of_isWhitespace white (show isWhitespace '[' = false by decide)
  have notEnd := ne_of_isWhitespace white (show isWhitespace '}' = false by decide)
  have notClose := ne_of_isWhitespace white (show isWhitespace ']' = false by decide)
  cases inString : state.inString <;> cases escaped : state.escapeNext <;>
    simp [scan, inString, escaped, notQuote, notSlash, notBrace, notBracket, notEnd,
      notClose]

theorem scan_blank (blank : Blank text) (state : ScanState) :
    ∃ next, text.foldlM scan state = some next ∧ next.inString = state.inString ∧
      (state.inString = false → next = state) := by
  induction text generalizing state with
  | nil => exact ⟨state, rfl, rfl, fun _ => rfl⟩
  | cons c rest ih =>
    obtain ⟨white, restBlank⟩ := forall_mem_cons.mp blank
    obtain ⟨middle, scanned, sameString, same⟩ := scan_white white state
    obtain ⟨last, restScanned, restString, restSame⟩ := ih restBlank middle
    refine ⟨last, ?_, restString.trans sameString, ?_⟩
    · rw [foldlM_cons, scanned]
      exact restScanned
    · intro outside
      rw [restSame (sameString.trans outside), same outside]

theorem exists_trimEnd (text : List Char) :
    ∃ blank, text = trimEnd text ++ blank ∧ Blank blank := by
  refine ⟨text.rtakeWhile isWhitespace, ?_, ?_⟩
  · exact rdropWhile_append_rtakeWhile.symm
  · exact fun c member => mem_rtakeWhile_imp member

/-- A character that is not white space stays, with all before it. -/
theorem trimEnd_append_cons (front : List Char) (black : isWhitespace c = false) (back : List Char)
    : trimEnd (front ++ c :: back) = front ++ c :: trimEnd back := by
  induction back using reverseRecOn with
  | nil =>
    have kept := rdropWhile_concat_neg isWhitespace front c (by simp [black])
    simpa [trimEnd] using kept
  | append_singleton back last ih =>
    have shift : front ++ c :: (back ++ [last]) = (front ++ c :: back) ++ [last] := by simp
    rw [shift]
    cases white : isWhitespace last with
    | true =>
      have shorter : ∀ text, trimEnd (text ++ [last]) = trimEnd text := fun text =>
        rdropWhile_concat_pos _ text last white
      rw [shorter, shorter, ih]
    | false =>
      have kept : ∀ text, trimEnd (text ++ [last]) = text ++ [last] := fun text =>
        rdropWhile_concat_neg _ text last (by simp [white])
      rw [kept, kept, shift]

/-- A complete text does not look truncated. -/
theorem looksTruncated_of_isText {text : String} (isText : IsText text.toList) :
    looksTruncated text = false := by
  have balanced := balanced_of_isText isText
  obtain ⟨blank, equal, isBlank⟩ := exists_trimEnd text.toList
  have isPrefix : trimEnd text.toList <+: text.toList := ⟨blank, equal.symm⟩
  obtain ⟨state, scanned, -⟩ := balanced.front _ isPrefix []
  obtain ⟨last, lastScanned, sameString, same⟩ := scan_blank isBlank state
  have whole := balanced.whole []
  rw [equal, foldlM_append, scanned] at whole
  have isLast : last = outsideAt [] := Option.some.inj (lastScanned.symm.trans whole)
  have outside : state.inString = false := by rw [← sameString, isLast]; rfl
  have isState : state = outsideAt [] := (same outside).symm.trans isLast
  rw [looksTruncated]
  split
  · rfl
  · have found : (trimEnd text.toList).foldlM scan {} = some (outsideAt []) :=
      isState ▸ scanned
    rw [found]
    rfl

/-- A text that opens a brace and is cut off before it closes looks truncated. -/
theorem looksTruncated_of_open {back : List Char} (blank : Blank front) (balanced : Balanced inner)
    (isPrefix : back <+: inner) : looksTruncated (String.ofList (front ++ '{' :: back)) = true := by
  have trimmed := trimEnd_append_cons front (show isWhitespace '{' = false by decide) back
  obtain ⟨rest, equal, -⟩ := exists_trimEnd back
  have shorter : trimEnd back <+: back := ⟨rest, equal.symm⟩
  obtain ⟨state, scanned, deeper⟩ := balanced.front _ (shorter.trans isPrefix) ['}']
  obtain ⟨start, startScanned, -, same⟩ := scan_blank blank {}
  have found : (front ++ '{' :: trimEnd back).foldlM scan {} = some state := by
    rw [foldlM_append, startScanned, same rfl]
    exact scanned
  have isOpen : state.depth ≠ [] := by
    intro closed
    rw [closed] at deeper
    cases suffix_nil.mp deeper
  rw [looksTruncated, String.toList_ofList, trimmed, found]
  simp [isOpen]

end Obelus.Formats
