import Mathlib.Algebra.Order.Ring.Rat
import Mathlib.Data.List.Sort

/-!
# Comparison functions

Functions that compare two elements by the sign of a number, and sorts by them.
-/

namespace Obelus.Data

universe u

variable {α : Type u} {compare : α → α → ℚ} {key : α → ℚ} {left right : α}

/-- The comparison is one by some order. -/
structure Compares (compare : α → α → ℚ) : Prop where
  swap : ∀ left right, 0 < compare left right ↔ compare right left < 0
  trans : ∀ first second third, compare first second ≤ 0 → compare second third ≤ 0 →
    compare first third ≤ 0

/-- Elements with equal keys are compared in another way. -/
def byKey (key : α → ℚ) (compare : α → α → ℚ) (left right : α) : ℚ :=
  if key left ≠ key right then key left - key right else compare left right

theorem byKey_nonpos_iff : byKey key compare left right ≤ 0 ↔
    key left < key right ∨ key left = key right ∧ compare left right ≤ 0 := by
  unfold byKey
  split
  · next differ => simp [le_iff_lt_or_eq, sub_eq_zero, differ]
  · next same => simp [not_not.mp same]

theorem key_le_of_byKey_nonpos (before : byKey key compare left right ≤ 0) :
    key left ≤ key right := by
  rcases byKey_nonpos_iff.mp before with less | ⟨same, -⟩
  · exact less.le
  · exact same.le

theorem byKey_eq_zero (tie : byKey key compare left right = 0) : compare left right = 0 := by
  unfold byKey at tie
  split at tie
  · next differ => exact absurd (sub_eq_zero.mp tie) differ
  · exact tie

namespace Compares

theorem byKey (compares : Compares compare) (key : α → ℚ) : Compares (byKey key compare) where
  swap left right := by
    have rest := compares.swap left right
    unfold Data.byKey
    by_cases same : key left = key right
    · simpa [same] using rest
    · simp [same, Ne.symm same]
  trans first second third := by
    have rest := compares.trans first second third
    simp only [byKey_nonpos_iff]
    grind

theorem pairwise_insertionSort (compares : Compares compare) (elements : List α) :
    (elements.insertionSort fun left right => compare left right ≤ 0).Pairwise
      fun left right => compare left right ≤ 0 := by
  have total : Std.Total fun left right => compare left right ≤ 0 :=
    ⟨fun left right => by
      rcases le_or_gt (compare left right) 0 with le | gt
      · exact .inl le
      · exact .inr ((compares.swap left right).mp gt).le⟩
  have trans : IsTrans α fun left right => compare left right ≤ 0 := ⟨compares.trans⟩
  exact List.pairwise_insertionSort _ _

end Compares

end Obelus.Data
