import Mathlib.Logic.Relation

/-!
# Closures of finite relations

The elements that are reached from given ones, found by adding successors until there is
none to add.
-/

namespace Obelus.Data

open List

universe u

variable {α : Type u} [DecidableEq α]

/-- The elements of the universe that follow a found one and are not found yet. -/
def newSuccessors (elements : List α) (edge : α → α → Bool) (found : List α) : List α :=
  elements.filter fun next => next ∉ found && found.any fun earlier => edge earlier next

/-- Adding the successors leaves fewer elements to find. -/
theorem length_unfound_lt {elements : List α} {edge : α → α → Bool} {found : List α}
    (some : newSuccessors elements edge found ≠ []) :
    (elements.filter (· ∉ found ++ newSuccessors elements edge found)).length <
      (elements.filter (· ∉ found)).length := by
  obtain ⟨next, isNew⟩ := exists_mem_of_ne_nil _ some
  obtain ⟨member, isUnfound⟩ := mem_filter.mp isNew
  rw [Bool.and_eq_true, decide_eq_true_iff] at isUnfound
  have within : elements.filter (· ∉ found ++ newSuccessors elements edge found) =
      (elements.filter (· ∉ found)).filter
        (· ∉ found ++ newSuccessors elements edge found) := by
    rw [filter_filter]
    refine filter_congr fun element _ => ?_
    by_cases isFound : element ∈ found <;> simp [isFound]
  rw [within, length_filter_lt_length_iff_exists]
  refine ⟨next, mem_filter.mpr ⟨member, decide_eq_true isUnfound.1⟩, ?_⟩
  simp [isNew]

/-- The elements that are reached from the found ones. -/
def closure (elements : List α) (edge : α → α → Bool) (found : List α) : List α :=
  if newSuccessors elements edge found = [] then found
  else closure elements edge (found ++ newSuccessors elements edge found)
termination_by (elements.filter (· ∉ found)).length
decreasing_by exact length_unfound_lt ‹_›

variable {elements : List α} {edge : α → α → Bool} {found : List α}

/-- An element of the universe follows another. -/
def Follows (elements : List α) (edge : α → α → Bool) (earlier next : α) : Prop :=
  edge earlier next ∧ next ∈ elements

theorem subset_closure : found ⊆ closure elements edge found := by
  fun_induction closure elements edge found with
  | case1 found _ => exact Subset.refl found
  | case2 found _ ih => exact Subset.trans (subset_append_left _ _) ih

/-- The closure has the successors of its elements. -/
theorem follows_closure {earlier next : α} (isIn : earlier ∈ closure elements edge found)
    (follows : Follows elements edge earlier next) : next ∈ closure elements edge found := by
  fun_induction closure elements edge found with
  | case1 found none =>
    refine Decidable.byContradiction fun isUnfound => ?_
    have isNew : next ∈ newSuccessors elements edge found := by
      refine mem_filter.mpr ⟨follows.2, ?_⟩
      rw [Bool.and_eq_true, decide_eq_true_iff, any_eq_true]
      exact ⟨isUnfound, earlier, isIn, follows.1⟩
    rw [none] at isNew
    cases isNew
  | case2 found _ ih => exact ih isIn

/-- The closure has nothing that is not reached. -/
theorem reached_of_mem_closure {element : α} (isIn : element ∈ closure elements edge found) :
    ∃ start ∈ found, Relation.ReflTransGen (Follows elements edge) start element := by
  fun_induction closure elements edge found with
  | case1 found _ => exact ⟨element, isIn, .refl⟩
  | case2 found _ ih =>
    obtain ⟨start, isStart, reaches⟩ := ih isIn
    rcases mem_append.mp isStart with isFound | isNew
    · exact ⟨start, isFound, reaches⟩
    · obtain ⟨member, follows⟩ := mem_filter.mp isNew
      rw [Bool.and_eq_true, any_eq_true] at follows
      obtain ⟨-, earlier, isEarlier, isEdge⟩ := follows
      exact ⟨earlier, isEarlier, .head ⟨isEdge, member⟩ reaches⟩

theorem mem_closure_iff {element : α} : element ∈ closure elements edge found ↔
    ∃ start ∈ found, Relation.ReflTransGen (Follows elements edge) start element := by
  constructor
  · exact reached_of_mem_closure
  · rintro ⟨start, isStart, reaches⟩
    induction reaches with
    | refl => exact subset_closure isStart
    | tail _ follows ih => exact follows_closure ih follows

end Obelus.Data
