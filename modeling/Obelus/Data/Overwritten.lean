import Mathlib.Data.List.Induction

/-!
# Values overwritten in turn

Updates that count overwrite a value one after another.  The last of them decides.
-/

namespace Obelus.Data

open List

universe u v

variable {υ : Type u} {β : Type v} {counts fewer : υ → Bool} {value : υ → β}

/-- The value after the updates that count, in their order. -/
def overwritten (counts : υ → Bool) (value : υ → β) (start : β) (updates : List υ) : β :=
  updates.foldl (fun current update => if counts update then value update else current) start

theorem overwritten_of_none {updates : List υ} (start : β)
    (none : ∀ update ∈ updates, counts update = false) :
    overwritten counts value start updates = start := by
  induction updates with
  | nil => rfl
  | cons update rest ih =>
    rw [forall_mem_cons] at none
    rw [overwritten, foldl_cons, none.1]
    exact ih none.2

theorem overwritten_append (start : β) (front back : List υ) :
    overwritten counts value start (front ++ back) =
      overwritten counts value (overwritten counts value start front) back :=
  foldl_append

theorem overwritten_cons (start : β) (update : υ) (rest : List υ) :
    overwritten counts value start (update :: rest) =
      overwritten counts value (if counts update then value update else start) rest :=
  rfl

/-- No update counts, or one of them is the last that does. -/
theorem exists_last_counting (counts : υ → Bool) (updates : List υ) :
    (∀ update ∈ updates, counts update = false) ∨
      ∃ front update back, updates = front ++ update :: back ∧ counts update ∧
        ∀ later ∈ back, counts later = false := by
  induction updates with
  | nil => exact .inl (forall_mem_nil _)
  | cons first rest ih =>
    rcases ih with noneLater | ⟨front, update, back, rfl, counting, last⟩
    · cases firstCounts : counts first with
      | true => exact .inr ⟨[], first, rest, rfl, firstCounts, noneLater⟩
      | false => exact .inl (forall_mem_cons.mpr ⟨firstCounts, noneLater⟩)
    · exact .inr ⟨first :: front, update, back, rfl, counting, last⟩

/-- When fewer updates count, the value is the same exactly if the last one that counted
still does or agrees with the value left by the ones before it. -/
theorem overwritten_eq_iff (start : β) (updates : List υ)
    (weaker : ∀ update, fewer update → counts update) :
    overwritten counts value start updates = overwritten fewer value start updates ↔
      ∀ front update back, updates = front ++ update :: back → counts update →
        (∀ later ∈ back, counts later = false) →
          fewer update ∨ value update = overwritten fewer value start front := by
  have notFewer : ∀ {back : List υ}, (∀ later ∈ back, counts later = false) →
      ∀ later ∈ back, fewer later = false := by
    intro back last later member
    cases isFewer : fewer later with
    | false => rfl
    | true => exact absurd (weaker later isFewer) (by simp [last later member])
  have split : ∀ front update back, counts update → (∀ later ∈ back, counts later = false) →
      (overwritten counts value start (front ++ update :: back) =
        overwritten fewer value start (front ++ update :: back) ↔
          fewer update ∨ value update = overwritten fewer value start front) := by
    intro front update back counting last
    rw [overwritten_append, overwritten_append, overwritten_cons, overwritten_cons,
      overwritten_of_none _ last, overwritten_of_none _ (notFewer last), if_pos counting]
    cases isFewer : fewer update with
    | true => simp
    | false => simp
  constructor
  · rintro same front update back rfl counting last
    exact (split front update back counting last).mp same
  · intro agrees
    rcases exists_last_counting counts updates with
      none | ⟨front, update, back, rfl, counting, last⟩
    · rw [overwritten_of_none _ none, overwritten_of_none _ (notFewer none)]
    · exact (split front update back counting last).mpr (agrees front update back rfl counting last)

end Obelus.Data
