import Mathlib.Data.List.Chain
import Mathlib.Data.List.Count
import Mathlib.Data.List.Infix
import Mathlib.Data.List.TakeWhile

/-!
# Lists in parts

A list that is cut into parts at places where neighbours do not belong together:
a run of elements that belong together lies within one part.
-/

namespace Obelus.Data

open List

universe u v

variable {α : Type u} {β : Type v} {together : α → α → Prop} {related : α → β → Prop}

/-- The neighbours on both sides of every cut do not belong together. -/
def CutApart (together : α → α → Prop) (parts : List (List α)) : Prop :=
  parts.IsChain fun left right => ∀ x ∈ left.getLast?, ∀ y ∈ right.head?, ¬together x y

/-- A run of elements that belong together lies within one part. -/
theorem exists_part_of_run {parts : List (List α)} (apart : CutApart together parts)
    (nonempty : [] ∉ parts) {before run after : List α}
    (equal : parts.flatten = before ++ (run ++ after)) (chain : run.IsChain together)
    (isRun : run ≠ []) :
    ∃ earlier front back later, parts = earlier ++ (front ++ (run ++ back)) :: later ∧
      before = earlier.flatten ++ front ∧ after = back ++ later.flatten := by
  induction run generalizing before with
  | nil => exact absurd rfl isRun
  | cons head tail ih =>
    cases tail with
    | nil =>
      rcases flatten_eq_append_iff.mp equal with
        ⟨earlier, rest, rfl, rfl, restEq⟩ |
          ⟨earlier, front, next, back, later, rfl, rfl, restEq⟩
      · obtain ⟨empties, back, later, rfl, allEmpty, rfl⟩ := flatten_eq_cons_iff.mp restEq.symm
        have none : empties = [] := by
          cases empties with
          | nil => rfl
          | cons first others =>
            rw [allEmpty first (by simp)] at nonempty
            simp at nonempty
        subst none
        exact ⟨earlier, [], back, later, rfl, by simp, by simp⟩
      · obtain ⟨rfl, rfl⟩ := restEq
        exact ⟨earlier, front, back, later, rfl, rfl, rfl⟩
    | cons second others =>
      have extended : parts.flatten = (before ++ [head]) ++ ((second :: others) ++ after) := by
        simpa using equal
      obtain ⟨earlier, front, back, later, rfl, beforeEq, rfl⟩ :=
        ih extended chain.of_cons (by simp)
      have join : together head second := (isChain_cons_cons.mp chain).1
      cases front using reverseRecOn with
      | append_singleton front last =>
        rw [← append_assoc] at beforeEq
        obtain ⟨rfl, rfl⟩ := append_inj' beforeEq rfl |>.imp_right (cons.inj · |>.1)
        exact ⟨earlier, front, back, later, by simp, rfl, rfl⟩
      | nil =>
        exfalso
        rw [append_nil] at beforeEq
        cases earlier using reverseRecOn with
        | nil => simp at beforeEq
        | append_singleton earlier part =>
          rw [flatten_append, flatten_singleton] at beforeEq
          cases part using reverseRecOn with
          | nil => simp at nonempty
          | append_singleton part last =>
            rw [← append_assoc] at beforeEq
            obtain ⟨-, sameLast⟩ := append_inj' beforeEq rfl
            obtain rfl := (cons.inj sameLast).1
            have cut := (isChain_append.mp apart).2.2
            have adjacent := cut (part ++ [head]) (by simp) ([] ++ (second :: others ++ back)) rfl
            exact adjacent head (by simp) second rfl join

variable {left : List α} {right : List β}

/-- Lists that stand side by side split at the same places. -/
theorem exists_append_of_forall₂ {front back : List β}
    (sides : Forall₂ related left (front ++ back)) :
    ∃ first second, left = first ++ second ∧ Forall₂ related first front ∧
      Forall₂ related second back := by
  induction front generalizing left with
  | nil => exact ⟨[], left, rfl, Forall₂.nil, sides⟩
  | cons head tail ih =>
    cases sides with
    | cons relates rest =>
      obtain ⟨first, second, rfl, firstSides, secondSides⟩ := ih rest
      exact ⟨_, second, rfl, Forall₂.cons relates firstSides, secondSides⟩

theorem exists_flatten_of_forall₂ {parts : List (List β)}
    (sides : Forall₂ related left parts.flatten) :
    ∃ leftParts : List (List α), left = leftParts.flatten ∧
      Forall₂ (Forall₂ related) leftParts parts := by
  induction parts generalizing left with
  | nil => exact ⟨[], by cases sides; rfl, Forall₂.nil⟩
  | cons part rest ih =>
    obtain ⟨first, second, rfl, firstSides, secondSides⟩ := exists_append_of_forall₂ sides
    obtain ⟨leftParts, rfl, partSides⟩ := ih secondSides
    exact ⟨first :: leftParts, rfl, Forall₂.cons firstSides partSides⟩

theorem forall₂_comp {γ : Type v} {second : β → γ → Prop} {composed : α → γ → Prop}
    (compose : ∀ x y z, related x y → second y z → composed x z) {middle : List β} {right : List γ}
    (firstSides : Forall₂ related left middle) (secondSides : Forall₂ second middle right)
    : Forall₂ composed left right := by
  induction firstSides generalizing right with
  | nil =>
    cases secondSides
    exact Forall₂.nil
  | cons relates _ ih =>
    cases secondSides with
    | cons next rest => exact Forall₂.cons (compose _ _ _ relates next) (ih rest)

section

variable (sides : List.Forall₂ related left right)
include sides

theorem exists_right_of_forall₂ {x : α} (member : x ∈ left) : ∃ y ∈ right, related x y := by
  induction sides with
  | nil => cases member
  | cons relates _ ih =>
    rcases mem_cons.mp member with rfl | inRest
    · exact ⟨_, mem_cons_self, relates⟩
    · obtain ⟨y, inRight, relatesRest⟩ := ih inRest
      exact ⟨y, mem_cons_of_mem _ inRight, relatesRest⟩

theorem forall₂_of_mem_left {weaker : α → β → Prop}
    (weaken : ∀ x ∈ left, ∀ y, related x y → weaker x y) : Forall₂ weaker left right := by
  induction sides with
  | nil => exact Forall₂.nil
  | cons relates _ ih =>
    obtain ⟨head, tail⟩ := forall_mem_cons.mp weaken
    exact Forall₂.cons (head _ relates) (ih tail)

theorem exists_left_of_forall₂ {y : β} (member : y ∈ right) : ∃ x ∈ left, related x y :=
  exists_right_of_forall₂ sides.flip member

/-- Two relations between lists that stand side by side. -/
theorem forall₂_and {other : α → β → Prop} (others : Forall₂ other left right) :
    Forall₂ (fun x y => related x y ∧ other x y) left right := by
  induction sides with
  | nil => exact .nil
  | cons here _ ih =>
    cases others with
    | cons otherHere rest => exact .cons ⟨here, otherHere⟩ (ih rest)

end

/-- Parts that are no longer than other parts are together the same only where each is. -/
theorem flatMap_eq_flatMap_iff {shown whole : α → List β}
    (shorter : ∀ item, (shown item).length ≤ (whole item).length) (items : List α) :
    items.flatMap shown = items.flatMap whole ↔ ∀ item ∈ items, shown item = whole item := by
  have allShorter (items : List α) :
      (items.flatMap shown).length ≤ (items.flatMap whole).length := by
    induction items with
    | nil => exact Nat.le_refl _
    | cons item rest ih =>
      rw [flatMap_cons, flatMap_cons, length_append, length_append]
      exact Nat.add_le_add (shorter item) ih
  induction items with
  | nil => simp
  | cons item rest ih =>
    rw [flatMap_cons, flatMap_cons, forall_mem_cons]
    constructor
    · intro same
      have lengths := congrArg length same
      rw [length_append, length_append] at lengths
      have here := shorter item
      have later := allShorter rest
      obtain ⟨sameHere, sameLater⟩ := append_inj same (by omega)
      exact ⟨sameHere, ih.mp sameLater⟩
    · rintro ⟨here, later⟩
      rw [here, ih.mpr later]

/-!
## Lists without some occurrences

What is left of a list when some occurrences of one element are dropped.
-/

variable {α : Type u} {dropped : α}

/-- The second list is the first one without some occurrences of the element. -/
inductive Drops (dropped : α) : List α → List α → Prop
  | nil : Drops dropped [] []
  | keep (element : α) {whole kept : List α} : Drops dropped whole kept →
      Drops dropped (element :: whole) (element :: kept)
  | drop {whole kept : List α} : Drops dropped whole kept → Drops dropped (dropped :: whole) kept

namespace Drops

variable {whole kept left right : List α}

/-- What is left of two parts consists of what is left of each. -/
theorem exists_append (drops : Drops dropped (left ++ right) kept) :
    ∃ keptLeft keptRight, kept = keptLeft ++ keptRight ∧ Drops dropped left keptLeft ∧
      Drops dropped right keptRight := by
  induction left generalizing kept with
  | nil => exact ⟨[], kept, rfl, nil, drops⟩
  | cons element rest ih =>
    cases drops with
    | keep _ drops =>
      obtain ⟨keptLeft, keptRight, rfl, first, second⟩ := ih drops
      exact ⟨element :: keptLeft, keptRight, rfl, keep element first, second⟩
    | drop drops =>
      obtain ⟨keptLeft, keptRight, rfl, first, second⟩ := ih drops
      exact ⟨keptLeft, keptRight, rfl, drop first, second⟩

/-- A list without the element is left as it is. -/
theorem eq_of_not_mem (drops : Drops dropped whole kept) (absent : dropped ∉ whole) :
    kept = whole := by
  induction drops with
  | nil => rfl
  | keep element _ ih => rw [ih fun member => absent (List.mem_cons_of_mem _ member)]
  | drop _ _ => exact absurd List.mem_cons_self absent

/-- A first part without the element is left as it is. -/
theorem exists_of_append (absent : dropped ∉ left) (drops : Drops dropped (left ++ right) kept) :
    ∃ keptRight, kept = left ++ keptRight ∧ Drops dropped right keptRight := by
  obtain ⟨keptLeft, keptRight, rfl, first, second⟩ := exists_append drops
  rw [first.eq_of_not_mem absent]
  exact ⟨keptRight, rfl, second⟩

end Drops

/-!
## Lists in turns

Some elements of a list open a turn, which lasts until the next element that
opens one.  `EveryTurn` is a property of every opening element and the rest of
its turn.
-/

variable {α : Type u} {opens : α → Bool} {holds : α → List α → Prop}

/-- What stands in front of the next element that opens a turn. -/
def turn (opens : α → Bool) (elements : List α) : List α :=
  elements.takeWhile fun element => !opens element

def EveryTurn (opens : α → Bool) (holds : α → List α → Prop) (elements : List α) : Prop :=
  ∀ opener rest, opener :: rest <:+ elements → opens opener → holds opener (turn opens rest)

theorem turn_cons_of_opens {opener : α} (isOpener : opens opener) (rest : List α) :
    turn opens (opener :: rest) = [] := by
  simp [turn, isOpener]

variable {element : α} {front elements rest : List α}

theorem turn_cons_of_not_opens (follows : ¬opens element) (rest : List α) :
    turn opens (element :: rest) = element :: turn opens rest := by
  simp [turn, follows]

/-- Elements that open no turn belong to the turn that is open. -/
theorem turn_append (follow : ∀ element ∈ front, ¬opens element) (rest : List α) :
    turn opens (front ++ rest) = front ++ turn opens rest := by
  apply takeWhile_append_of_pos
  intro element member
  simpa using follow element member

theorem mem_of_mem_turn (member : element ∈ turn opens elements) : element ∈ elements :=
  (List.takeWhile_prefix _).mem member

@[simp]
theorem everyTurn_nil : EveryTurn opens holds [] := by
  intro opener rest suffix
  simp at suffix

theorem everyTurn_cons_iff : EveryTurn opens holds (element :: rest) ↔
      (opens element → holds element (turn opens rest)) ∧ EveryTurn opens holds rest := by
  constructor
  · intro every
    refine ⟨every element rest suffix_rfl, ?_⟩
    intro opener after suffix
    exact every opener after (suffix.trans (suffix_cons element rest))
  · rintro ⟨first, others⟩ opener after suffix isOpener
    rcases suffix_cons_iff.mp suffix with equal | suffix
    · obtain ⟨rfl, rfl⟩ := cons.inj equal
      exact first isOpener
    · exact others opener after suffix isOpener

theorem everyTurn_append_iff (follow : ∀ element ∈ front, ¬opens element) :
    EveryTurn opens holds (front ++ rest) ↔ EveryTurn opens holds rest := by
  induction front with
  | nil => rfl
  | cons element front ih =>
    rw [forall_mem_cons] at follow
    rw [cons_append, everyTurn_cons_iff, ih follow.2]
    simp [follow.1]

theorem EveryTurn.of_suffix {part : List α} (every : EveryTurn opens holds elements)
    (suffix : part <:+ elements) : EveryTurn opens holds part := by
  intro opener rest inPart
  exact every opener rest (inPart.trans suffix)

/-!
## Calls and answers

A log of calls and answers, each under the id of the call.
-/

inductive Exchange (κ : Type u)
  | call (id : κ)
  | answer (id : κ)

namespace Exchange

variable {κ : Type u}

def asCall : Exchange κ → Option κ
  | .call id => some id
  | .answer _ => none

def asAnswer : Exchange κ → Option κ
  | .call _ => none
  | .answer id => some id

def calls (log : List (Exchange κ)) : List κ :=
  log.filterMap asCall

def answers (log : List (Exchange κ)) : List κ :=
  log.filterMap asAnswer

variable [DecidableEq κ]

/-- Each call is answered once after it. -/
def AnsweredOnce (log : List (Exchange κ)) : Prop :=
  ∀ before id after, log = before ++ .call id :: after → (answers after).count id = 1

omit [DecidableEq κ] in
/-- Each answer follows a call with its id. -/
def Asked (log : List (Exchange κ)) : Prop :=
  ∀ before id after, log = before ++ .answer id :: after → .call id ∈ before

theorem answeredOnce_cons_iff {first : Exchange κ} {rest : List (Exchange κ)} :
    AnsweredOnce (first :: rest) ↔
      (∀ id, first = .call id → (answers rest).count id = 1) ∧ AnsweredOnce rest := by
  constructor
  · intro once
    refine ⟨fun id isCall => once [] id rest (by rw [isCall, List.nil_append]), ?_⟩
    intro before id after split
    exact once (first :: before) id after (by rw [split, List.cons_append])
  · rintro ⟨here, later⟩ before id after split
    cases before with
    | nil =>
      cases split
      exact here id rfl
    | cons other before =>
      cases split
      exact later before id after rfl

@[simp]
theorem answeredOnce_nil : AnsweredOnce ([] : List (Exchange κ)) := by
  intro before id after split
  simp at split

end Exchange

end Obelus.Data
