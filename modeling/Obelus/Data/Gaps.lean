import Mathlib.Data.List.Destutter
import Mathlib.Data.List.ReduceOption

/-!
# Lists with gaps

A list some places of which are gaps.  Where of like neighbours only the first
is kept, closing the gaps brings like elements together exactly when two of them
stand at the sides of a gap.
-/

namespace Obelus.Data

open List

universe u

variable {α : Type u}

/-- Like elements stand at the sides of a gap. -/
def MeetsAcrossGap (alike : α → α → Prop) (cells : List (Option α)) : Prop :=
  ∃ before first gap second after, cells =
    before ++ some first :: (List.replicate (gap + 1) none ++ some second :: after) ∧
      alike first second

/-- The place after the element is a gap, and the next element is like it. -/
def OpensGap (alike : α → α → Prop) (first : α) (cells : List (Option α)) : Prop :=
  cells.head? = some none ∧ ∃ second ∈ cells.reduceOption.head?, alike first second

/-- Neighbours are not like elements. -/
def Distinct (alike : α → α → Prop) : Option α → Option α → Prop
  | some first, some second => ¬alike first second
  | _, _ => True

instance (alike : α → α → Prop) [DecidableRel alike] : DecidableRel (Distinct alike) :=
  fun first second =>
    match first, second with
    | some first, some second => inferInstanceAs (Decidable (¬alike first second))
    | some _, none => isTrue trivial
    | none, some _ => isTrue trivial
    | none, none => isTrue trivial

variable {alike : α → α → Prop}

theorem distinct_none (other : Option α) : Distinct alike none other := by
  cases other <;> trivial

variable {cells : List (Option α)} {first : α}

theorem exists_gap_iff {second : α} : cells.reduceOption.head? = some second ↔
      ∃ gap after, cells = replicate gap none ++ some second :: after := by
  induction cells with
  | nil => simp
  | cons cell cells ih =>
    cases cell with
    | none =>
      rw [reduceOption_cons_of_none, ih]
      constructor
      · rintro ⟨gap, after, rfl⟩
        exact ⟨gap + 1, after, rfl⟩
      · rintro ⟨gap, after, equal⟩
        cases gap with
        | zero => simp at equal
        | succ gap => exact ⟨gap, after, (cons.inj equal).2⟩
    | some element =>
      constructor
      · intro isHead
        cases isHead
        exact ⟨0, cells, rfl⟩
      · rintro ⟨gap, after, equal⟩
        cases gap with
        | zero => exact congrArg (fun cell : Option α => cell) (cons.inj equal).1
        | succ gap => simp [replicate_succ] at equal

theorem opensGap_iff : OpensGap alike first cells ↔ ∃ gap second after,
      cells = replicate (gap + 1) none ++ some second :: after ∧ alike first second := by
  constructor
  · rintro ⟨isGap, second, isNext, areAlike⟩
    obtain ⟨gap, after, rfl⟩ := exists_gap_iff.mp isNext
    cases gap with
    | zero => simp at isGap
    | succ gap => exact ⟨gap, second, after, rfl, areAlike⟩
  · rintro ⟨gap, second, after, rfl, areAlike⟩
    exact ⟨rfl, second, exists_gap_iff.mpr ⟨gap + 1, after, rfl⟩, areAlike⟩

@[simp]
theorem not_meetsAcrossGap_nil : ¬MeetsAcrossGap alike [] := by
  rintro ⟨before, first, gap, second, after, equal, -⟩
  simp at equal

@[simp]
theorem meetsAcrossGap_none_cons :
    MeetsAcrossGap alike (none :: cells) ↔ MeetsAcrossGap alike cells := by
  constructor
  · rintro ⟨before, first, gap, second, after, equal, areAlike⟩
    cases before with
    | nil => simp at equal
    | cons cell before =>
      exact ⟨before, first, gap, second, after, (cons.inj equal).2, areAlike⟩
  · rintro ⟨before, first, gap, second, after, rfl, areAlike⟩
    exact ⟨none :: before, first, gap, second, after, rfl, areAlike⟩

theorem meetsAcrossGap_some_cons : MeetsAcrossGap alike (some first :: cells) ↔
      OpensGap alike first cells ∨ MeetsAcrossGap alike cells := by
  rw [opensGap_iff]
  constructor
  · rintro ⟨before, other, gap, second, after, equal, areAlike⟩
    cases before with
    | nil =>
      obtain ⟨same, rfl⟩ := cons.inj equal
      cases same
      exact Or.inl ⟨gap, second, after, rfl, areAlike⟩
    | cons cell before =>
      exact Or.inr ⟨before, other, gap, second, after, (cons.inj equal).2, areAlike⟩
  · rintro (⟨gap, second, after, rfl, areAlike⟩ |
      ⟨before, other, gap, second, after, rfl, areAlike⟩)
    · exact ⟨[], first, gap, second, after, rfl, areAlike⟩
    · exact ⟨some first :: before, other, gap, second, after, rfl, areAlike⟩

theorem opensGap_congr [Std.Symm alike] [IsTrans α alike] {other : α} (areAlike : alike first other)
    (cells : List (Option α)) : OpensGap alike first cells ↔ OpensGap alike other cells := by
  have same : ∀ second, alike first second ↔ alike other second := fun second =>
    ⟨IsTrans.trans _ _ _ (Std.Symm.symm _ _ areAlike), IsTrans.trans _ _ _ areAlike⟩
  simp [OpensGap, same]

/-- Elements at the sides of a gap are told apart by what they are changed into. -/
theorem meetsAcrossGap_map {β : Type u} (change : α → β) (alike : β → β → Prop)
    (cells : List (Option α)) : MeetsAcrossGap alike (cells.map (Option.map change)) ↔
      MeetsAcrossGap (fun first second => alike (change first) (change second)) cells := by
  induction cells with
  | nil => simp
  | cons cell cells ih =>
    cases cell with
    | none => simpa using ih
    | some first =>
      rw [map_cons, Option.map_some, meetsAcrossGap_some_cons, meetsAcrossGap_some_cons]
      refine or_congr ?_ ih
      rw [OpensGap, OpensGap]
      cases cells with
      | nil => simp
      | cons cell cells => cases cell <;> simp

section Destutter

variable [DecidableRel alike]

/-- An element that is distinct from every other stays, and so do its
neighbours. -/
theorem destutter_cons_of_distinct {cell : Option α} (apart : ∀ other, Distinct alike cell other)
    (cells : List (Option α)) :
    (cell :: cells).destutter (Distinct alike) = cell :: cells.destutter (Distinct alike) := by
  cases cells with
  | nil => rfl
  | cons next cells =>
    rw [destutter_cons', destutter'_cons_pos _ (apart next)]
    rfl

theorem destutter_none_cons (cells : List (Option α)) :
    (none :: cells).destutter (Distinct alike) = none :: cells.destutter (Distinct alike) :=
  destutter_cons_of_distinct distinct_none cells

theorem destutter'_none_cons (first : α) (cells : List (Option α)) :
    (none :: cells).destutter' (Distinct alike) (some first) =
      some first :: none :: cells.destutter (Distinct alike) := by
  rw [← destutter_none_cons]
  rfl

theorem destutter'_append_none_cons (cell : Option α) (front back : List (Option α)) :
    (front ++ none :: back).destutter' (Distinct alike) cell =
      front.destutter' (Distinct alike) cell ++ none :: back.destutter (Distinct alike) := by
  induction front generalizing cell with
  | nil =>
    have apart : Distinct alike cell none := by cases cell <;> trivial
    rw [nil_append, destutter'_cons_pos _ apart, ← destutter_cons', destutter_none_cons]
    rfl
  | cons next front ih =>
    rw [cons_append, destutter'_cons, destutter'_cons]
    split
    · rw [ih, cons_append]
    · exact ih cell

/-- Up to a gap, and from it on. -/
theorem destutter_append_none_cons (front back : List (Option α)) :
    (front ++ none :: back).destutter (Distinct alike) =
      front.destutter (Distinct alike) ++ none :: back.destutter (Distinct alike) := by
  cases front with
  | nil => exact destutter_none_cons back
  | cons cell front => exact destutter'_append_none_cons cell front back

theorem head_destutter' (first : α) (cells : List (Option α)) :
    (cells.destutter' (Distinct alike) (some first)).reduceOption.head? = some first := by
  induction cells with
  | nil => rfl
  | cons cell cells ih =>
    rw [destutter'_cons]
    split
    · rfl
    · exact ih

theorem head_destutter (cells : List (Option α)) :
    (cells.destutter (Distinct alike)).reduceOption.head? = cells.reduceOption.head? := by
  induction cells with
  | nil => rfl
  | cons cell cells ih =>
    cases cell with
    | none =>
      rw [destutter_none_cons, reduceOption_cons_of_none, ih]
      rfl
    | some first => exact head_destutter' first cells

theorem isChain_destutter'_iff [Std.Symm alike] [IsTrans α alike]
    (cells : List (Option α)) :
    (∀ first, (cells.destutter' (Distinct alike) (some first)).reduceOption.IsChain
        (fun first second => ¬alike first second) ↔ ¬MeetsAcrossGap alike (some first :: cells)) ∧
      ((cells.destutter (Distinct alike)).reduceOption.IsChain
        (fun first second => ¬alike first second) ↔ ¬MeetsAcrossGap alike cells) := by
  induction cells with
  | nil => simp [meetsAcrossGap_some_cons, OpensGap]
  | cons cell cells ih =>
    cases cell with
    | none =>
      constructor
      · intro first
        rw [destutter'_none_cons, reduceOption_cons_of_some, reduceOption_cons_of_none,
          isChain_cons, head_destutter, ih.2, meetsAcrossGap_some_cons]
        simp [OpensGap]
      · rw [destutter_none_cons, reduceOption_cons_of_none, ih.2, meetsAcrossGap_none_cons]
    | some second =>
      have here := ih.1 second
      refine ⟨fun first => ?_, here⟩
      have noGap : ¬OpensGap alike first (some second :: cells) := by simp [OpensGap]
      rw [meetsAcrossGap_some_cons, or_iff_right noGap]
      by_cases areAlike : alike first second
      · have joined : ¬Distinct alike (some first) (some second) := not_not.mpr areAlike
        rw [destutter'_cons_neg _ joined, ih.1 first, meetsAcrossGap_some_cons,
          meetsAcrossGap_some_cons, opensGap_congr areAlike]
      · have apart : Distinct alike (some first) (some second) := areAlike
        rw [destutter'_cons_pos _ apart, reduceOption_cons_of_some,
          isChain_cons, head_destutter', here]
        simp [areAlike]

/-- Where only the first of like neighbours is kept and the gaps are closed, like
elements become neighbours when they stood at the sides of a gap. -/
theorem isChain_destutter_iff [Std.Symm alike] [IsTrans α alike]
    (cells : List (Option α)) :
    (cells.destutter (Distinct alike)).reduceOption.IsChain (fun first second =>
      ¬alike first second) ↔ ¬MeetsAcrossGap alike cells :=
  (isChain_destutter'_iff cells).2

end Destutter

end Obelus.Data
