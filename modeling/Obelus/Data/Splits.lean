import Mathlib.Data.List.Basic
import Mathlib.Data.Option.Basic

/-!
# Splits of texts

Splitting at a separator and at a doubled separator, when every letter is replaced by one
that is a separator exactly when the letter was.  ASCII lower case is such a replacement.
-/

namespace Obelus.Data

open List

universe u

section Splits

variable {α : Type u} [BEq α]

/-- The pieces between the doubled separators, found from the left. -/
def splitOnDouble (separator : α) : List α → List (List α)
  | [] => [[]]
  | [last] => [[last]]
  | first :: second :: rest =>
    if first == separator && second == separator then [] :: splitOnDouble separator rest
    else (splitOnDouble separator (second :: rest)).modifyHead (first :: ·)

theorem splitOnDouble_ne_nil (separator : α) (text : List α) :
    splitOnDouble separator text ≠ [] := by
  induction text using splitOnDouble.induct separator with
  | case1 => exact cons_ne_nil _ _
  | case2 last => exact cons_ne_nil _ _
  | case3 first second rest doubled ih =>
    rw [splitOnDouble, if_pos doubled]
    exact cons_ne_nil _ _
  | case4 first second rest single ih =>
    rw [splitOnDouble, if_neg single]
    exact mt modifyHead_eq_nil_iff.mp ih

variable [LawfulBEq α]

theorem splitOnDouble_cons_of_ne {separator first : α} (other : first ≠ separator)
    (rest : List α) : splitOnDouble separator (first :: rest) =
      (splitOnDouble separator rest).modifyHead (first :: ·) := by
  cases rest with
  | nil => rfl
  | cons second rest =>
    rw [splitOnDouble, beq_eq_false_iff_ne.mpr other, Bool.false_and, if_neg Bool.false_ne_true]

theorem splitOnDouble_of_not_mem {separator : α} {text : List α} (absent : separator ∉ text) :
    splitOnDouble separator text = [text] := by
  induction text using splitOnDouble.induct separator with
  | case1 => rfl
  | case2 last => rfl
  | case3 first second rest doubled ih =>
    simp only [Bool.and_eq_true, beq_iff_eq] at doubled
    exact absurd (doubled.1 ▸ mem_cons_self) absent
  | case4 first second rest single ih =>
    rw [splitOnDouble, if_neg single, ih fun member => absent (.tail _ member)]
    rfl

/-- A letter that is not the separator is in a piece. -/
theorem exists_mem_splitOn {separator letter : α} {text : List α} (member : letter ∈ text)
    (other : letter ≠ separator) : ∃ piece ∈ text.splitOn separator, letter ∈ piece := by
  induction text with
  | nil => cases member
  | cons first rest ih =>
    rw [splitOn_cons_eq_if_modifyHead]
    rcases mem_cons.mp member with same | later
    · subst same
      rw [if_neg (by simpa using other)]
      cases pieces : rest.splitOn separator with
      | nil => exact absurd pieces (splitOn_ne_nil _ _)
      | cons piece pieces => exact ⟨letter :: piece, .head _, .head _⟩
    · obtain ⟨piece, isPiece, inPiece⟩ := ih later
      split
      · exact ⟨piece, .tail _ isPiece, inPiece⟩
      · cases pieces : rest.splitOn separator with
        | nil => exact absurd pieces (splitOn_ne_nil _ _)
        | cons head tail =>
          rw [pieces] at isPiece
          rcases mem_cons.mp isPiece with rfl | inTail
          · exact ⟨first :: piece, .head _, .tail _ inPiece⟩
          · exact ⟨piece, .tail _ inTail, inPiece⟩

variable {replace : α → α} {separator : α}

section

variable (same : ∀ letter, replace letter = separator ↔ letter = separator)
include same

theorem splitOn_map (text : List α) :
    (text.map replace).splitOn separator = (text.splitOn separator).map (·.map replace) := by
  induction text with
  | nil => rfl
  | cons letter rest ih =>
    have sameTest : (replace letter == separator) = (letter == separator) := by
      rw [Bool.eq_iff_iff, beq_iff_eq, beq_iff_eq]
      exact same letter
    rw [map_cons, splitOn_cons_eq_if_modifyHead, splitOn_cons_eq_if_modifyHead, sameTest, ih]
    split
    · rfl
    · cases rest.splitOn separator <;> rfl

theorem splitOnDouble_map (text : List α) : splitOnDouble separator (text.map replace) =
      (splitOnDouble separator text).map (·.map replace) := by
  have sameTest letter : (replace letter == separator) = (letter == separator) := by
    rw [Bool.eq_iff_iff, beq_iff_eq, beq_iff_eq]
    exact same letter
  induction text using splitOnDouble.induct separator with
  | case1 => rfl
  | case2 last => rfl
  | case3 first second rest doubled ih =>
    rw [map_cons, map_cons, splitOnDouble, splitOnDouble, sameTest, sameTest,
      if_pos doubled, if_pos doubled, ih]
    rfl
  | case4 first second rest single ih =>
    rw [map_cons, map_cons, splitOnDouble, splitOnDouble, sameTest, sameTest,
      if_neg single, if_neg single, ← map_cons, ih]
    cases splitOnDouble separator (second :: rest) <;> rfl

theorem takeWhile_ne_map (text : List α) : (text.map replace).takeWhile (· != separator) =
      (text.takeWhile (· != separator)).map replace := by
  have sameTest : (fun letter => letter != separator) ∘ replace = (· != separator) := by
    funext letter
    rw [Function.comp_apply, Bool.eq_iff_iff, bne_iff_ne, bne_iff_ne]
    exact not_congr (same letter)
  rw [takeWhile_map, sameTest]

end

end Splits

theorem toNat_toLower (c : Char) :
    c.toLower.toNat = if 65 ≤ c.toNat ∧ c.toNat ≤ 90 then c.toNat + 32 else c.toNat := by
  have isUpper : (c.val ≥ 'A'.val ∧ c.val ≤ 'Z'.val) ↔ 65 ≤ c.toNat ∧ c.toNat ≤ 90 := Iff.rfl
  unfold Char.toLower
  split
  · next upper =>
    rw [if_pos (isUpper.mp upper)]
    have small : c.val.toNat ≤ 90 := (isUpper.mp upper).2
    exact Nat.mod_eq_of_lt (show c.val.toNat + 32 < 2 ^ 32 by omega)
  · next other => rw [if_neg (other ∘ isUpper.mpr)]

theorem toLower_toLower (c : Char) : c.toLower.toLower = c.toLower := by
  apply Char.toNat_inj.mp
  rw [toNat_toLower c.toLower, toNat_toLower, if_neg]
  split <;> omega

theorem toLower_eq_iff {c separator : Char} (notLetter : separator.toNat < 65) :
    c.toLower = separator ↔ c = separator := by
  rw [← Char.toNat_inj, ← Char.toNat_inj, toNat_toLower]
  split <;> omega

theorem splitOn_map_toLower {separator : Char} (notLetter : separator.toNat < 65)
    (text : List Char) : (text.map Char.toLower).splitOn separator =
      (text.splitOn separator).map (·.map Char.toLower) :=
  splitOn_map (fun _ => toLower_eq_iff notLetter) text

end Obelus.Data
