import Mathlib.Data.List.Infix

/-!
# First occurrences

Splitting a text at the first occurrence of a pattern.  More text behind the occurrence does
not change where it is.
-/

namespace Obelus.Data

open List

universe u

variable {α : Type u} [DecidableEq α]

/-- The text before and after the first occurrence of the pattern. -/
def splitOnce (pattern : List α) : List α → Option (List α × List α)
  | [] => if pattern = [] then some ([], []) else none
  | first :: rest =>
    if pattern <+: first :: rest then some ([], (first :: rest).drop pattern.length)
    else (splitOnce pattern rest).map fun parts => (first :: parts.1, parts.2)

variable {pattern text before after : List α}

/-- No occurrence of the pattern begins in the first part. -/
def NoneBegins (pattern first second : List α) : Prop :=
  ∀ front back, first = front ++ back → back ≠ [] → ¬pattern <+: back ++ second

omit [DecidableEq α] in
theorem noneBegins_nil (pattern second : List α) : NoneBegins pattern [] second := by
  intro front back isEmpty notEmpty
  exact absurd (append_eq_nil_iff.mp isEmpty.symm).2 notEmpty

variable {second first later : List α}

omit [DecidableEq α] in
theorem noneBegins_cons_iff {first : α} {rest : List α} :
    NoneBegins pattern (first :: rest) second ↔
      ¬pattern <+: first :: (rest ++ second) ∧ NoneBegins pattern rest second := by
  constructor
  · intro none
    refine ⟨none [] (first :: rest) rfl (cons_ne_nil _ _), ?_⟩
    intro front back isRest notEmpty
    exact none (first :: front) back (by rw [isRest, cons_append]) notEmpty
  · rintro ⟨notHere, none⟩ front back isAll notEmpty
    cases front with
    | nil =>
      obtain rfl : first :: rest = back := isAll
      exact notHere
    | cons other front =>
      exact none front back (cons.inj isAll).2 notEmpty

/-- The first occurrence, and nothing that begins before it. -/
theorem splitOnce_eq_some_iff : splitOnce pattern text = some (before, after) ↔
      text = before ++ (pattern ++ after) ∧ NoneBegins pattern before (pattern ++ after) := by
  induction text generalizing before after with
  | nil =>
    rw [splitOnce]
    constructor
    · intro found
      split at found
      · next isEmpty =>
        cases found
        exact ⟨by rw [isEmpty]; rfl, noneBegins_nil _ _⟩
      · cases found
    · rintro ⟨isText, -⟩
      obtain ⟨rfl, rest⟩ := append_eq_nil_iff.mp isText.symm
      obtain ⟨rfl, rfl⟩ := append_eq_nil_iff.mp rest
      rfl
  | cons first rest ih =>
    rw [splitOnce]
    by_cases here : pattern <+: first :: rest
    · obtain ⟨tail, isTail⟩ := here
      rw [if_pos ⟨tail, isTail⟩, ← isTail, drop_left]
      constructor
      · rintro ⟨⟩
        exact ⟨rfl, noneBegins_nil _ _⟩
      · rintro ⟨isText, none⟩
        cases before with
        | nil =>
          rw [nil_append, append_cancel_left_eq] at isText
          rw [isText]
        | cons other before =>
          refine absurd ?_ (none [] (other :: before) rfl (cons_ne_nil _ _))
          rw [← isText]
          exact ⟨tail, rfl⟩
    · rw [if_neg here, Option.map_eq_some_iff]
      constructor
      · rintro ⟨⟨before, after⟩, found, ⟨⟩⟩
        obtain ⟨rfl, none⟩ := ih.mp found
        exact ⟨rfl, noneBegins_cons_iff.mpr ⟨here, none⟩⟩
      · rintro ⟨isText, none⟩
        cases before with
        | nil =>
          refine absurd ?_ here
          rw [isText]
          exact ⟨after, rfl⟩
        | cons other before =>
          obtain ⟨rfl, isRest⟩ := cons.inj isText
          exact ⟨(before, after), ih.mpr ⟨isRest, (noneBegins_cons_iff.mp none).2⟩, rfl⟩

/-- Without an occurrence none begins before more text, as long as it cannot reach into it. -/
theorem splitOnce_eq_none_iff (notEmpty : pattern ≠ []) :
    splitOnce pattern text = none ↔ NoneBegins pattern text [] := by
  induction text with
  | nil => simp [splitOnce, notEmpty, noneBegins_nil]
  | cons first rest ih =>
    rw [splitOnce, noneBegins_cons_iff, ← ih]
    split
    · next here => simp [here]
    · next notHere => simp [notHere]

/-- More text behind the first occurrence. -/
theorem splitOnce_append (found : splitOnce pattern text = some (before, after))
    (more : List α) : splitOnce pattern (text ++ more) = some (before, after ++ more) := by
  obtain ⟨rfl, none⟩ := splitOnce_eq_some_iff.mp found
  rw [splitOnce_eq_some_iff]
  refine ⟨by simp, ?_⟩
  intro front back isBefore notEmpty begins
  refine none front back isBefore notEmpty ?_
  rw [← append_assoc, ← append_assoc] at begins
  have short : pattern.length ≤ (back ++ pattern ++ after).length := by
    simp only [length_append]
    omega
  rw [← append_assoc]
  exact prefix_of_prefix_length_le begins (prefix_append _ _) short

omit [DecidableEq α] in
/-- An occurrence in more text cannot begin before an end that is too long for it, or that has
a character of its own. -/
theorem NoneBegins.extend (none : NoneBegins pattern (first ++ second) [])
    (far : pattern.length ≤ second.length + 1 ∨ ∃ c ∈ second, c ∉ pattern) (later : List α) :
    NoneBegins pattern first (second ++ later) := by
  rintro front back isFirst notEmpty begins
  rw [← append_assoc] at begins
  by_cases short : pattern.length ≤ (back ++ second).length
  · refine none front (back ++ second) (by rw [isFirst, append_assoc]) (by simp [notEmpty]) ?_
    rw [append_nil]
    exact prefix_of_prefix_length_le begins (prefix_append _ _) short
  · have within : back ++ second <+: pattern :=
      prefix_of_prefix_length_le (prefix_append _ _) begins (by omega)
    rw [length_append] at short
    have isLong := length_pos_iff.mpr notEmpty
    obtain fits | ⟨c, isIn, notIn⟩ := far
    · omega
    · exact notIn (within.subset (mem_append_right _ isIn))

omit [DecidableEq α] in
theorem NoneBegins.left (none : NoneBegins pattern (first ++ second) later) :
    NoneBegins pattern first (second ++ later) := by
  intro front back isFirst notEmpty begins
  refine none front (back ++ second) (by rw [isFirst, append_assoc]) (by simp [notEmpty]) ?_
  rwa [append_assoc]

omit [DecidableEq α] in
theorem NoneBegins.right (none : NoneBegins pattern (first ++ second) later) :
    NoneBegins pattern second later := by
  intro front back isSecond notEmpty
  exact none (first ++ front) back (by rw [isSecond, append_assoc]) notEmpty

/-!
## All occurrences

The text behind each occurrence of a pattern, from left to right, and how these texts
change when more text is put before or behind.
-/

variable {α : Type u} [DecidableEq α]

/-- The text behind each occurrence, of which there are at most as many as the second
argument says. -/
def tailsAfter (pattern : List α) : Nat → List α → List (List α)
  | 0, _ => []
  | n + 1, text =>
    match splitOnce pattern text with
    | none => []
    | some (_, after) => after :: tailsAfter pattern n after

/-- The text behind each occurrence; an occurrence takes at least one element. -/
def matchTails (pattern text : List α) : List (List α) :=
  tailsAfter pattern text.length text

variable {pattern text before after : List α}

theorem length_behind_lt (notEmpty : pattern ≠ [])
    (found : splitOnce pattern text = some (before, after)) : after.length < text.length := by
  obtain ⟨rfl, -⟩ := splitOnce_eq_some_iff.mp found
  have isLong := length_pos_iff.mpr notEmpty
  simp only [length_append]
  omega

/-- As many as the text is long are enough. -/
theorem tailsAfter_eq_matchTails (notEmpty : pattern ≠ []) {count : Nat}
    (enough : text.length ≤ count) : tailsAfter pattern count text = matchTails pattern text := by
  have all : ∀ more count (text : List α), text.length ≤ count →
      tailsAfter pattern (count + more) text = tailsAfter pattern count text := by
    intro more count
    induction count with
    | zero =>
      intro text enough
      obtain rfl := length_eq_zero_iff.mp (Nat.le_zero.mp enough)
      cases more with
      | zero => rfl
      | succ more => simp [tailsAfter, splitOnce, notEmpty]
    | succ count ih =>
      intro text enough
      rw [Nat.succ_add, tailsAfter, tailsAfter]
      cases found : splitOnce pattern text with
      | none => rfl
      | some parts =>
        have shorter := length_behind_lt notEmpty found
        have rest := ih parts.2 (by omega)
        simp [rest]
  have split := all (count - text.length) text.length text (Nat.le_refl _)
  rwa [Nat.add_sub_cancel' enough] at split

theorem matchTails_eq_nil (found : splitOnce pattern text = none) :
    matchTails pattern text = [] := by
  rw [matchTails]
  cases text with
  | nil => rfl
  | cons first rest => rw [length_cons, tailsAfter, found]

theorem matchTails_eq_cons (notEmpty : pattern ≠ [])
    (found : splitOnce pattern text = some (before, after)) :
    matchTails pattern text = after :: matchTails pattern after := by
  have shorter := length_behind_lt notEmpty found
  rw [matchTails]
  cases text with
  | nil => exact absurd shorter (Nat.not_lt_zero _)
  | cons first rest =>
    rw [length_cons] at shorter ⊢
    rw [tailsAfter, found]
    have enough := tailsAfter_eq_matchTails notEmpty (Nat.le_of_lt_succ shorter)
    simp [enough]

/-- A property of the texts behind the occurrences follows from the first of them. -/
theorem matchTails_induction (notEmpty : pattern ≠ []) {motive : List α → Prop}
    (none : ∀ text, splitOnce pattern text = none → motive text)
    (some : ∀ text before after, splitOnce pattern text = some (before, after) →
      motive after → motive text) (text : List α) : motive text := by
  induction isLength : text.length using Nat.strong_induction_on generalizing text with
  | _ length ih =>
    cases found : splitOnce pattern text with
    | none => exact none text found
    | some parts =>
      obtain ⟨before, after⟩ := parts
      have shorter := length_behind_lt notEmpty found
      exact some text before after found (ih after.length (isLength ▸ shorter) after rfl)

theorem exists_front_of_mem (notEmpty : pattern ≠ []) {tail : List α}
    (member : tail ∈ matchTails pattern text) : ∃ front, text = front ++ (pattern ++ tail) := by
  induction text using matchTails_induction notEmpty with
  | none text found =>
    rw [matchTails_eq_nil found] at member
    cases member
  | some text before after found ih =>
    obtain ⟨isText, -⟩ := splitOnce_eq_some_iff.mp found
    rw [matchTails_eq_cons notEmpty found] at member
    rcases mem_cons.mp member with rfl | later
    · exact ⟨before, isText⟩
    · obtain ⟨front, isAfter⟩ := ih later
      refine ⟨before ++ (pattern ++ front), ?_⟩
      rw [isText, isAfter]
      simp

variable {left right rest : List α} {first : α}

/-- Text in which no occurrence begins. -/
theorem matchTails_of_noneBegins (notEmpty : pattern ≠ []) (none : NoneBegins pattern left right) :
    matchTails pattern (left ++ right) = matchTails pattern right := by
  cases found : splitOnce pattern right with
  | none =>
    have all : splitOnce pattern (left ++ right) = Option.none := by
      rw [splitOnce_eq_none_iff notEmpty] at found ⊢
      intro front back isAll backNotEmpty begins
      rw [append_nil] at begins
      rcases append_eq_append_iff.mp isAll with ⟨middle, isFront, isRight⟩ |
        ⟨middle, isLeft, isBack⟩
      · apply found middle back isRight backNotEmpty
        rwa [append_nil]
      · by_cases isEmpty : middle = []
        · rw [isEmpty, nil_append] at isBack
          apply found [] back (by rw [nil_append, isBack]) backNotEmpty
          rwa [append_nil]
        · rw [isBack] at begins
          exact none front middle isLeft isEmpty begins
    rw [matchTails_eq_nil all, matchTails_eq_nil found]
  | some parts =>
    obtain ⟨before, after⟩ := parts
    obtain ⟨rfl, noneBefore⟩ := splitOnce_eq_some_iff.mp found
    have all : splitOnce pattern (left ++ (before ++ (pattern ++ after))) =
        some (left ++ before, after) := by
      rw [splitOnce_eq_some_iff]
      refine ⟨by rw [append_assoc], ?_⟩
      intro front back isAll backNotEmpty begins
      rcases append_eq_append_iff.mp isAll with ⟨middle, isFront, isRight⟩ |
        ⟨middle, isLeft, isBack⟩
      · exact noneBefore middle back isRight backNotEmpty begins
      · by_cases isEmpty : middle = []
        · rw [isEmpty, nil_append] at isBack
          exact noneBefore [] back (by rw [nil_append, isBack]) backNotEmpty begins
        · rw [isBack, append_assoc] at begins
          exact none front middle isLeft isEmpty begins
    rw [matchTails_eq_cons notEmpty all, matchTails_eq_cons notEmpty found]

omit [DecidableEq α] in
/-- An occurrence cannot begin where its first element is missing. -/
theorem noneBegins_of_not_mem (notMem : first ∉ left) (right : List α) :
    NoneBegins (first :: rest) left right := by
  rintro front back rfl notEmpty begins
  cases back with
  | nil => exact notEmpty rfl
  | cons other back =>
    obtain ⟨rfl, -⟩ := cons_prefix_cons.mp begins
    exact notMem (mem_append_right _ mem_cons_self)

omit [DecidableEq α] in
/-- A pattern that begins with an element of its own cannot begin before an occurrence
and reach into it. -/
theorem noneBegins_of_not_infix (own : first ∉ rest) (notIn : ¬first :: rest <:+: left)
    (more : List α) : NoneBegins (first :: rest) left (first :: rest ++ more) := by
  rintro front back rfl notEmpty begins
  by_cases isLong : (first :: rest).length ≤ back.length
  · apply notIn
    obtain ⟨tail, rfl⟩ := prefix_of_prefix_length_le begins (prefix_append _ _) isLong
    exact ⟨front, tail, by simp only [append_assoc]⟩
  · have within : back ++ [first] <+: first :: rest := by
      apply @prefix_of_prefix_length_le _ _ _ (back ++ (first :: rest ++ more)) _ begins
      · simp only [length_append, length_cons, length_nil] at isLong ⊢
        omega
      · rw [prefix_append_right_inj]
        exact ⟨rest ++ more, rfl⟩
    cases back with
    | nil => exact notEmpty rfl
    | cons other back =>
      rw [cons_append, cons_prefix_cons] at within
      apply own
      exact within.2.subset (mem_append_right _ mem_cons_self)

omit [DecidableEq α] in
/-- Behind the last element of a text, which is no element of the pattern, none begins
anew. -/
theorem noneBegins_of_last (none : NoneBegins pattern left [])
    (last : ∀ c ∈ left.getLast?, c ∉ pattern) : NoneBegins pattern left right := by
  rintro front back rfl notEmpty begins
  apply none front back rfl notEmpty
  rw [append_nil]
  rcases prefix_or_prefix_of_prefix begins (prefix_append back right) with
    inBack | within
  · exact inBack
  · have isLast : (front ++ back).getLast? = some (back.getLast notEmpty) := by
      rw [getLast?_append_of_ne_nil _ notEmpty, getLast?_eq_getLast_of_ne_nil notEmpty]
    exact absurd (within.subset (getLast_mem notEmpty)) (last _ isLast)

/-- More text without an occurrence, behind an element that the pattern does not have. -/
theorem matchTails_append (notEmpty : pattern ≠ []) (last : ∀ c ∈ left.getLast?, c ∉ pattern)
    (none : NoneBegins pattern right []) :
    matchTails pattern (left ++ right) = (matchTails pattern left).map (· ++ right) := by
  have noRight : matchTails pattern right = [] :=
    matchTails_eq_nil ((splitOnce_eq_none_iff notEmpty).mpr none)
  induction left using matchTails_induction notEmpty with
  | none left found =>
    have noLeft := (splitOnce_eq_none_iff notEmpty).mp found
    rw [matchTails_eq_nil found, map_nil,
      matchTails_of_noneBegins notEmpty (noneBegins_of_last noLeft last), noRight]
  | some left before after found ih =>
    obtain ⟨isLeft, -⟩ := splitOnce_eq_some_iff.mp found
    have lastAfter : ∀ c ∈ after.getLast?, c ∉ pattern := by
      intro c isLast
      apply last c
      rw [isLeft, ← append_assoc, getLast?_append, isLast]
      rfl
    rw [matchTails_eq_cons notEmpty (splitOnce_append found right),
      matchTails_eq_cons notEmpty found, ih lastAfter, map_cons]

end Obelus.Data
