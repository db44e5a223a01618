import Mathlib.Data.Nat.Find
import Obelus.Markdown.Scan

/-!
# The first code block, cut short

A code block that is too long is shown with its first lines and a line that says how
many are hidden.  Where the first run of three fence characters starts a line, and the
line below it does not close it again, nothing but the code of that block is touched.
-/

namespace Obelus.Markdown

open List

variable {c fenceChar : Char} {fenceLen pos : Nat} {line text content : List Char}
  {p : List Char → Prop}

/-- The first place of a text at which what follows has the property. -/
def FirstAt (p : List Char → Prop) (text : List Char) (pos : Nat) : Prop :=
  p (text.drop pos) ∧ ∀ before < pos, ¬p (text.drop before)

theorem exists_firstAt (holds : p (text.drop pos)) : ∃ first, FirstAt p text first := by
  classical
  have found : ∃ n, p (text.drop n) := ⟨pos, holds⟩
  exact ⟨Nat.find found, Nat.find_spec found, fun _ => Nat.find_min found⟩

theorem firstAt_zero_iff : FirstAt p text 0 ↔ p text := by
  simp [FirstAt]

theorem firstAt_succ_iff {rest : List Char} :
    FirstAt p (c :: rest) (pos + 1) ↔ ¬p (c :: rest) ∧ FirstAt p rest pos := by
  unfold FirstAt
  rw [Nat.forall_lt_succ_left]
  simp only [drop_succ_cons, drop_zero]
  tauto

/-!
## The fences of a block
-/

/-- The text begins with a fence. -/
abbrev Opens (text : List Char) : Prop :=
  "```".toList <+: text ∨ "~~~".toList <+: text

/-- The run of fence characters at the front. -/
def run (c : Char) (text : List Char) : Nat :=
  (text.takeWhile (· == c)).length

theorem find_cons (pattern : List Char) (c : Char) (rest : List Char) :
    find pattern (c :: rest) =
      if pattern <+: c :: rest then some 0 else (find pattern rest).map (· + 1) := by
  rw [find, Data.splitOnce]
  split
  · rfl
  · rw [find, Option.map_map, Option.map_map]
    rfl

/-- The first fence is here, or it is the first one of what follows. -/
theorem findOpeningFence_cons (c : Char) (rest : List Char) : findOpeningFence (c :: rest) =
    if Opens (c :: rest) then some (0, c, run c (c :: rest))
    else (findOpeningFence rest).map fun fence => (fence.1 + 1, fence.2) := by
  unfold findOpeningFence Opens run
  rw [find_cons, find_cons]
  by_cases backtick : "```".toList <+: c :: rest
  · obtain rfl : '`' = c := (cons_prefix_cons.mp backtick).1
    simp only [backtick, if_true, true_or]
    split_ifs <;> cases find "~~~".toList rest <;> simp
  · by_cases tilde : "~~~".toList <+: c :: rest
    · obtain rfl : '~' = c := (cons_prefix_cons.mp tilde).1
      simp only [backtick, tilde, if_true, if_false, or_true]
      cases find "```".toList rest <;> simp
    · simp only [backtick, tilde, if_false, or_self]
      rcases find "```".toList rest with _ | a <;> rcases find "~~~".toList rest with _ | b <;>
        simp
      split_ifs <;> rfl

theorem findOpeningFence_eq_some_iff : findOpeningFence content = some (pos, c, fenceLen) ↔
    FirstAt Opens content pos ∧ (content.drop pos).head? = some c ∧
      fenceLen = run c (content.drop pos) := by
  induction content generalizing pos with
  | nil => simp [FirstAt, findOpeningFence, find, Data.splitOnce]
  | cons first rest ih =>
    rw [findOpeningFence_cons]
    by_cases here : Opens (first :: rest)
    · rw [if_pos here]
      cases pos with
      | zero =>
        rw [firstAt_zero_iff, drop_zero, head?_cons]
        simp only [here, true_and, Option.some.injEq, Prod.mk.injEq]
        constructor
        · rintro ⟨rfl, rfl⟩
          exact ⟨rfl, rfl⟩
        · rintro ⟨rfl, rfl⟩
          exact ⟨rfl, rfl⟩
      | succ pos => simp [firstAt_succ_iff, here]
    · rw [if_neg here]
      cases pos with
      | zero => simp [firstAt_zero_iff, here]
      | succ pos => simpa [firstAt_succ_iff, here] using ih

/-- A line break, and behind it a closing line. -/
def ClosesNext (fenceChar : Char) (fenceLen : Nat) (text : List Char) : Prop :=
  ∃ rest, text = '\n' :: rest ∧ isClosingLine fenceChar fenceLen rest = true

theorem findClosingFence_eq_some_iff : findClosingFence fenceChar fenceLen text = some pos ↔
    FirstAt (ClosesNext fenceChar fenceLen) text pos := by
  induction text generalizing pos with
  | nil => simp [FirstAt, ClosesNext, findClosingFence]
  | cons c rest ih =>
    have isHere : ClosesNext fenceChar fenceLen (c :: rest) ↔
        c = '\n' ∧ isClosingLine fenceChar fenceLen rest = true := by
      simp [ClosesNext]
    rw [findClosingFence]
    split
    · next here =>
      rw [← isHere] at here
      cases pos <;> simp [firstAt_zero_iff, firstAt_succ_iff, here]
    · next notHere =>
      rw [← isHere] at notHere
      cases pos <;> simp [firstAt_zero_iff, firstAt_succ_iff, notHere, ih]

theorem find_line (noBreak : '\n' ∉ line) (rest : List Char) :
    find ['\n'] (line ++ '\n' :: rest) = some line.length := by
  have found : Data.splitOnce ['\n'] (line ++ '\n' :: rest) = some (line, rest) :=
    Data.splitOnce_eq_some_iff.mpr ⟨rfl, Data.noneBegins_of_not_mem noBreak _⟩
  rw [find, found]
  rfl

theorem exists_line (found : find ['\n'] text = some pos) :
    ∃ line rest, text = line ++ '\n' :: rest ∧ '\n' ∉ line ∧ pos = line.length := by
  rcases line_cases text with absent | ⟨line, rest, rfl, noBreak⟩
  · have none := (Data.splitOnce_eq_none_iff (cons_ne_nil '\n' [])).mpr
      (Data.noneBegins_of_not_mem absent [])
    rw [find, none] at found
    cases found
  · rw [find_line noBreak] at found
    exact ⟨line, rest, rfl, noBreak, (Option.some.inj found).symm⟩

/-!
## The first block
-/

/-- The text above a block, its opening line, its code and its closing line with the text
below it. -/
structure FencedBlock where
  above : List Char
  fenceChar : Char
  fenceLen : Nat
  info : List Char
  code : List Char
  below : List Char

namespace FencedBlock

variable (block : FencedBlock)

/-- The text up to the first line of the code. -/
def opening : List Char :=
  block.above ++ (replicate block.fenceLen block.fenceChar ++ (block.info ++ ['\n']))

/-- The first lines of the text that a fence starts and closes. -/
structure IsFirst (content : List Char) : Prop where
  text : content = block.opening ++ (block.code ++ '\n' :: block.below)
  fence : 3 ≤ block.fenceLen ∧ (block.fenceChar = '`' ∨ block.fenceChar = '~')
  info : block.info.head? ≠ some block.fenceChar ∧ '\n' ∉ block.info
  starts : atLineStart content block.above.length = true
  above : ∀ pos < block.above.length, atLineStart content pos = true → ¬Opens (content.drop pos)
  code : ∀ pos ≤ block.code.length, atLineStart block.code pos = true → isClosingLine
    block.fenceChar block.fenceLen ((block.code ++ '\n' :: block.below).drop pos) = false
  below : isClosingLine block.fenceChar block.fenceLen block.below = true

def lines : List (List Char) :=
  textLines [] block.code

/-- The text with other lines in place of the code. -/
def withLines (lines : List (List Char)) : List Char :=
  block.opening ++ (lines.flatMap (· ++ ['\n']) ++ block.below)

/-- The line that stands for the hidden ones. -/
def markerLine (saveToTempFile : List Char → Option (List Char)) (shown : Nat) : List Char :=
  "... (".toList ++ (toString (block.lines.length - shown)).toList ++ " more lines".toList ++
    ((saveToTempFile block.code).map (" → ".toList ++ ·)).getD [] ++ [')']

end FencedBlock

/-- The first fence starts a line, and the line below it does not close it again. -/
def OpensPlainly (content : List Char) : Prop :=
  ∀ pos fenceChar fenceLen, findOpeningFence content = some (pos, fenceChar, fenceLen) →
    atLineStart content pos = true ∧
      isClosingLine fenceChar fenceLen ((content.drop pos).dropWhile (· != '\n')).tail = false

theorem run_of_opens (opens : Opens text) (head : text.head? = some c) :
    3 ≤ run c text ∧ (c = '`' ∨ c = '~') := by
  rcases opens with ⟨tail, rfl⟩ | ⟨tail, rfl⟩
  · obtain rfl : '`' = c := Option.some.inj head
    simp [run]
  · obtain rfl : '~' = c := Option.some.inj head
    simp [run]

theorem opens_replicate (long : 3 ≤ fenceLen) (isFence : c = '`' ∨ c = '~') (rest : List Char) :
    Opens (replicate fenceLen c ++ rest) := by
  obtain ⟨more, rfl⟩ := Nat.exists_eq_add_of_le long
  rw [replicate_add, append_assoc]
  rcases isFence with rfl | rfl
  · exact Or.inl (prefix_append _ _)
  · exact Or.inr (prefix_append _ _)

theorem break_ne (isFence : c = '`' ∨ c = '~') : '\n' ≠ c := by
  rcases isFence with rfl | rfl <;> decide

theorem run_replicate (rest : List Char) :
    run c (replicate fenceLen c ++ rest) = fenceLen + run c rest := by
  rw [run, takeWhile_append_of_pos (by simp), length_append, length_replicate, run]

theorem run_eq_zero_iff : run c text = 0 ↔ text.head? ≠ some c := by
  cases text with
  | nil => simp [run]
  | cons first rest => simp [run, takeWhile_cons, apply_ite]

theorem replicate_run (c : Char) (text : List Char) :
    replicate (run c text) c ++ text.drop (run c text) = text := by
  have all : text.takeWhile (· == c) = replicate (run c text) c := by
    apply eq_replicate_of_mem
    intro other member
    simpa using mem_takeWhile_imp member
  have front := prefix_iff_eq_take.mp (@List.takeWhile_prefix _ text (· == c))
  rw [← all, front]
  exact take_append_drop _ _

namespace FencedBlock.IsFirst

variable {block : FencedBlock}

theorem drop_above (first : block.IsFirst content) : content.drop block.above.length =
    replicate block.fenceLen block.fenceChar ++
      (block.info ++ '\n' :: (block.code ++ '\n' :: block.below)) := by
  rw [first.text, opening, append_assoc, drop_left]
  simp only [append_assoc, cons_append, nil_append]

/-- The first fence is the one that opens the block. -/
theorem findOpeningFence_eq (first : block.IsFirst content) (plain : OpensPlainly content) :
    findOpeningFence content = some (block.above.length, block.fenceChar, block.fenceLen) := by
  have opens : Opens (content.drop block.above.length) :=
    first.drop_above ▸ opens_replicate first.fence.1 first.fence.2 _
  have isRun : run block.fenceChar (content.drop block.above.length) = block.fenceLen := by
    rw [first.drop_above, run_replicate, run_eq_zero_iff.mpr, Nat.add_zero]
    cases isInfo : block.info with
    | nil => simpa using break_ne first.fence.2
    | cons c info => simpa [isInfo] using first.info.1
  have isHead : (content.drop block.above.length).head? = some block.fenceChar := by
    obtain ⟨more, isMore⟩ := Nat.exists_eq_add_of_le' first.fence.1
    rw [first.drop_above, isMore]
    rfl
  obtain ⟨pos, isFirst⟩ := exists_firstAt opens
  obtain ⟨c, head⟩ : ∃ c, (content.drop pos).head? = some c := by
    cases isText : content.drop pos with
    | nil => exact absurd (isText ▸ isFirst.1) (by decide)
    | cons c rest => exact ⟨c, rfl⟩
  have starts := (plain _ _ _ (findOpeningFence_eq_some_iff.mpr ⟨isFirst, head, rfl⟩)).1
  obtain rfl : pos = block.above.length := by
    rcases Nat.lt_trichotomy pos block.above.length with before | isPos | behind
    · exact absurd isFirst.1 (first.above pos before starts)
    · exact isPos
    · exact absurd opens (isFirst.2 _ behind)
  exact findOpeningFence_eq_some_iff.mpr ⟨isFirst, isHead, isRun.symm⟩

/-- The first closing line is the one that closes the block. -/
theorem findClosingFence_eq (first : block.IsFirst content) :
    findClosingFence block.fenceChar block.fenceLen (block.code ++ '\n' :: block.below) =
      some block.code.length := by
  rw [findClosingFence_eq_some_iff]
  constructor
  · exact ⟨block.below, drop_left, first.below⟩
  · rintro pos within ⟨rest, isText, closes⟩
    have isNext : (block.code ++ '\n' :: block.below).drop (pos + 1) = rest := by
      rw [← drop_drop, isText]
      rfl
    have isBreak : block.code[pos]? = some '\n' := by
      rw [← getElem?_append_left within, ← head?_drop, isText]
      rfl
    have open_ := first.code (pos + 1) within (by simp [atLineStart, isBreak])
    rw [isNext, closes] at open_
    cases open_

end FencedBlock.IsFirst

theorem exists_front (notEmpty : text.drop pos ≠ []) :
    ∃ front, front.length = pos ∧ front ++ text.drop pos = text := by
  rw [ne_eq, drop_eq_nil_iff, not_le] at notEmpty
  exact ⟨text.take pos, length_take_of_le notEmpty.le, take_append_drop _ _⟩

/-- What the code finds is the first block. -/
theorem exists_first (plain : OpensPlainly content) {newline offset : Nat}
    (opening : findOpeningFence content = some (pos, c, fenceLen))
    (break_ : find ['\n'] (content.drop (pos + fenceLen)) = some newline)
    (closing : findClosingFence c fenceLen (content.drop (pos + fenceLen + newline + 1)) =
      some offset) : ∃ block : FencedBlock, block.IsFirst content := by
  obtain ⟨starts, notClosed⟩ := plain _ _ _ opening
  obtain ⟨⟨opens, noneAbove⟩, head, isLen⟩ := findOpeningFence_eq_some_iff.mp opening
  obtain ⟨info, region, isInfo, noBreak, rfl⟩ := exists_line break_
  have isTail := replicate_run c (content.drop pos)
  rw [← isLen, drop_drop, isInfo] at isTail
  obtain ⟨above, rfl, isContent⟩ := @exists_front pos content
    (fun isEmpty => by simp [isEmpty] at head)
  have isRegion : content.drop (above.length + fenceLen + info.length + 1) = region := by
    rw [Nat.add_assoc, ← drop_drop, isInfo, drop_length_add_append]
    rfl
  rw [isRegion, findClosingFence_eq_some_iff] at closing
  obtain ⟨⟨below, isBelow, closes⟩, noneInCode⟩ := closing
  obtain ⟨code, rfl, isCode⟩ := @exists_front offset region (by simp [isBelow])
  obtain ⟨long, isFence⟩ := run_of_opens opens head
  rw [← isLen] at long
  have noBreaks : '\n' ∉ replicate fenceLen c ++ info := by
    simp [mem_replicate, break_ne isFence, noBreak]
  rw [isBelow] at isCode
  refine ⟨⟨above, c, fenceLen, info, code, below⟩, ?_, ⟨long, isFence⟩, ⟨?_, noBreak⟩, starts,
    fun before within _ => noneAbove before within, ?_, closes⟩
  · simp only [FencedBlock.opening, append_assoc, cons_append, nil_append, isCode, isTail,
      isContent]
  · have none : run c (info ++ '\n' :: region) = 0 := by
      rw [← isTail, run_replicate] at isLen
      omega
    rw [run_eq_zero_iff] at none
    cases info with
    | nil => simp
    | cons first info => simpa using none
  · intro pos within starts
    rw [isCode]
    cases pos with
    | zero =>
      rwa [← isTail, ← append_assoc, dropWhile_append_of_pos
        (fun a member => bne_iff_ne.mpr (ne_of_mem_of_not_mem member noBreaks)),
        dropWhile_cons_of_neg (by decide)] at notClosed
    | succ pos =>
      rw [← Bool.not_eq_true]
      intro closes
      apply noneInCode pos within
      have isBreak : region[pos]? = some '\n' := by
        rw [← isCode, getElem?_append_left within]
        simpa [atLineStart] using starts
      obtain ⟨inRegion, isBreak⟩ := List.getElem?_eq_some_iff.mp isBreak
      exact ⟨_, by rw [drop_eq_getElem_cons inRegion, isBreak], closes⟩

theorem intercalate_break {lines : List (List Char)} (notEmpty : lines ≠ []) :
    intercalate ['\n'] lines ++ ['\n'] = lines.flatMap (· ++ ['\n']) := by
  induction lines with
  | nil => exact absurd rfl notEmpty
  | cons line lines ih =>
    cases lines with
    | nil => simp
    | cons next lines =>
      rw [intercalate_cons_cons, flatMap_cons, ← ih (cons_ne_nil _ _)]
      simp

variable (saveToTempFile : List Char → Option (List Char)) {maxLines showLines : Nat}

theorem truncateCodeBlocksWith_of_first {block : FencedBlock} (first : block.IsFirst content)
    (plain : OpensPlainly content) (isMax : 0 < maxLines) (isShow : 0 < showLines) :
    truncateCodeBlocksWith saveToTempFile maxLines showLines content =
      if block.lines.length ≤ maxLines then content
      else block.withLines (block.lines.take (min showLines maxLines) ++
        [block.markerLine saveToTempFile (min showLines maxLines)]) := by
  have behindFence : content.drop (block.above.length + block.fenceLen) =
      block.info ++ '\n' :: (block.code ++ '\n' :: block.below) := by
    rw [← drop_drop, first.drop_above, drop_left' length_replicate]
  have isLength : block.opening.length =
      block.above.length + block.fenceLen + block.info.length + 1 := by
    simp only [FencedBlock.opening, length_append, length_replicate, length_singleton]
    omega
  have region : content.drop block.opening.length = block.code ++ '\n' :: block.below := by
    rw [first.text, drop_left]
  have above : content.take block.opening.length = block.opening := by
    rw [first.text, take_left]
  have below : content.drop (block.opening.length + block.code.length + 1) = block.below := by
    rw [Nat.add_assoc, ← drop_drop, region, drop_length_add_append]
    rfl
  rw [truncateCodeBlocksWith, first.findOpeningFence_eq plain]
  simp only [behindFence, find_line first.info.2, ← isLength, region, first.findClosingFence_eq,
    take_left, above, below]
  rw [← FencedBlock.lines]
  split
  · rfl
  · next long =>
    have isShown : min (min showLines maxLines) block.lines.length = min showLines maxLines := by
      omega
    have notEmpty : block.lines.take (min showLines maxLines) ≠ [] := by
      rw [← length_pos_iff, length_take]
      omega
    have breaks : "\n... (".toList = '\n' :: "... (".toList ∧ ")\n".toList = [')', '\n'] := by
      decide
    have join : ∀ shown dots hidden more saved : List Char,
        block.opening ++ shown ++ '\n' :: dots ++ hidden ++ more ++ saved ++ [')', '\n'] ++
            block.below =
          block.opening ++ (shown ++ ['\n'] ++ [dots ++ hidden ++ more ++ saved ++
            [')']].flatMap (· ++ ['\n']) ++ block.below) := by
      simp
    rw [isShown, FencedBlock.withLines, flatMap_append, ← intercalate_break notEmpty]
    simp only [breaks]
    exact join _ _ _ _ _

/-- Lines after the first `shown` of a first block with more than `maxLines` lines give way to
one line, and nothing else changes. -/
def TouchesOnlyCode (maxLines showLines shown : Nat) (marker : FencedBlock → List Char)
    (content : List Char) : Prop :=
  (∀ block : FencedBlock, block.IsFirst content → maxLines < block.lines.length →
    truncateCodeBlocksWith saveToTempFile maxLines showLines content =
      block.withLines (block.lines.take shown ++ [marker block])) ∧
  ((∀ block : FencedBlock, block.IsFirst content → block.lines.length ≤ maxLines) →
    truncateCodeBlocksWith saveToTempFile maxLines showLines content = content)

theorem touchesOnlyCode_of_opensPlainly (plain : OpensPlainly content) (isMax : 0 < maxLines)
    (isShow : 0 < showLines) :
    TouchesOnlyCode saveToTempFile maxLines showLines (min showLines maxLines)
      (·.markerLine saveToTempFile (min showLines maxLines)) content := by
  constructor
  · intro block first long
    rw [truncateCodeBlocksWith_of_first saveToTempFile first plain isMax isShow,
      if_neg (Nat.not_le_of_lt long)]
  · intro short
    by_cases isBlock : ∃ block : FencedBlock, block.IsFirst content
    · obtain ⟨block, first⟩ := isBlock
      rw [truncateCodeBlocksWith_of_first saveToTempFile first plain isMax isShow,
        if_pos (short block first)]
    · rw [truncateCodeBlocksWith]
      split
      · rfl
      · next opening =>
        dsimp only
        split
        · rfl
        · next break_ =>
          split
          · rfl
          · next closing => exact absurd (exists_first plain opening break_ closing) isBlock

def longText : List Char :=
  "Hi\n```sh\na\nb\nc\n```\nBye".toList

theorem touchesOnlyCode_longText : truncateCodeBlocksWith (fun _ => none) 2 1 longText =
    "Hi\n```sh\na\n... (2 more lines)\n```\nBye".toList := by
  have opening : findOpeningFence longText = some (3, '`', 3) := by
    decide +kernel
  have plain : OpensPlainly longText := by
    intro pos c len found
    rw [opening] at found
    cases found
    decide +kernel
  have cut := (touchesOnlyCode_of_opensPlainly (fun _ => none) plain
    (by decide : 0 < 2) (by decide : 0 < 1)).1
    ⟨"Hi\n".toList, '`', 3, "sh".toList, "a\nb\nc".toList, "```\nBye".toList⟩
    (by constructor <;> decide +kernel) (by decide +kernel)
  rw [cut]
  decide +kernel

/-- No more than `maxLines` lines are shown, and a fence inside a line is taken for the
opening one. -/
theorem not_touchesOnlyCode_fenceInLine :
    (∀ marker, ¬TouchesOnlyCode (fun _ => none) 1 2 2 marker "```\na\nb\n```".toList) ∧
      ∀ marker, ¬TouchesOnlyCode (fun _ => none) 1 1 1 marker
        "Use ```\n```\na\nb\n```".toList := by
  constructor
  · intro marker only
    have cut := congrArg (·[6]?) (only.1 ⟨[], '`', 3, [], "a\nb".toList, "```".toList⟩
      (by constructor <;> decide +kernel) (by decide +kernel))
    have dot : (truncateCodeBlocksWith (fun _ => none) 1 2 "```\na\nb\n```".toList)[6]? =
        some '.' := by
      decide +kernel
    exact absurd (dot.symm.trans (cut.trans rfl) : some '.' = some 'b') (by decide)
  · intro marker only
    have cut := congrArg (·[12]?) (only.1
      ⟨"Use ```\n".toList, '`', 3, [], "a\nb".toList, "```".toList⟩
      (by constructor <;> decide +kernel) (by decide +kernel))
    have dot : (truncateCodeBlocksWith (fun _ => none) 1 1
        "Use ```\n```\na\nb\n```".toList)[12]? = some '.' := by
      decide +kernel
    exact absurd (dot.symm.trans (cut.trans rfl) : some '.' = some 'a') (by decide)

end Obelus.Markdown
