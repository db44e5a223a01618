import Mathlib.Algebra.Order.Group.Defs
import Mathlib.Data.List.Basic
import Mathlib.Data.List.TakeWhile

/-!
# Sliding windows over recorded times

A limiter counts the times recorded within a window before it records another one.  It may
forget times that are older than every window it counts in.  The bound it keeps is one on
all windows, wherever they lie.
-/

namespace Obelus.Data.SlidingWindow

open List

universe u

variable {τ : Type u} [AddCommGroup τ] [LinearOrder τ] [IsOrderedAddMonoid τ]

/-- The times from `start` to `start + width`, both included. -/
def within (times : List τ) (start width : τ) : List τ :=
  times.filter fun time => start ≤ time ∧ time ≤ start + width

/-- The times that a window of the width ending now or later may hold. -/
def recent (times : List τ) (width now : τ) : List τ :=
  times.filter fun time => now - width ≤ time

/-- No window of the width holds more times than the limit. -/
def Bounded (limit : Nat) (width : τ) (times : List τ) : Prop :=
  ∀ start, (within times start width).length ≤ limit

/-- So many times may be recorded now. -/
def Room (limit : Nat) (width : τ) (times : List τ) (now : τ) (count : Nat) : Prop :=
  count + (recent times width now).length ≤ limit ∨ count = 0

/-- `kept` leaves out only times older than the horizon. -/
def Keeps (horizon now : τ) (times kept : List τ) : Prop :=
  ∃ dropped, times = dropped ++ kept ∧ ∀ time ∈ dropped, time < now - horizon

omit [IsOrderedAddMonoid τ] in
theorem bounded_nil (limit : Nat) (width : τ) : Bounded limit width [] :=
  fun _ => Nat.zero_le _

section Recent

variable {times : List τ} {width now next : τ}

theorem length_recent_le_of_le (waited : now ≤ next) :
    (recent times width next).length ≤ (recent times width now).length := by
  apply Sublist.length_le
  apply monotone_filter_right
  intro time isRecent
  simp only [decide_eq_true_eq] at isRecent ⊢
  exact (sub_le_sub_right waited width).trans isRecent

theorem Room.later {limit count : Nat} (room : Room limit width times now count)
    (waited : now ≤ next) : Room limit width times next count := by
  rcases room with fits | none
  · exact Or.inl ((Nat.add_le_add_left (length_recent_le_of_le waited) count).trans fits)
  · exact Or.inr none

end Recent

/-- Recording what there is room for keeps every window within the limit. -/
theorem Bounded.record {limit count : Nat} {width now : τ} {times : List τ}
    (bounded : Bounded limit width times) (room : Room limit width times now count) :
    Bounded limit width (times ++ replicate count now) := by
  intro start
  rcases room with fits | rfl
  swap
  · simpa using bounded start
  rw [within, filter_append, length_append]
  by_cases inWindow : start ≤ now ∧ now ≤ start + width
  · -- a window around the present holds recent times only
    have older : (within times start width).length ≤ (recent times width now).length := by
      apply Sublist.length_le
      apply monotone_filter_right
      intro time isWithin
      simp only [decide_eq_true_eq] at isWithin ⊢
      exact (sub_le_iff_le_add.mpr inWindow.2).trans isWithin.1
    have newer := length_filter_le
      (fun time => decide (start ≤ time ∧ time ≤ start + width)) (replicate count now)
    rw [length_replicate] at newer
    rw [within] at older
    omega
  · have none : (replicate count now).filter
        (fun time => decide (start ≤ time ∧ time ≤ start + width)) = [] := by
      simp [inWindow]
    rw [none]
    exact bounded start

section Keeps

variable {horizon now next width : τ} {times kept : List τ}

omit [IsOrderedAddMonoid τ] in
theorem keeps_self (horizon now : τ) (times : List τ) : Keeps horizon now times times :=
  ⟨[], rfl, by simp⟩

theorem Keeps.later (keeps : Keeps horizon now times kept) (waited : now ≤ next) :
    Keeps horizon next times kept := by
  obtain ⟨dropped, split, old⟩ := keeps
  exact ⟨dropped, split, fun time member =>
    (old time member).trans_le (sub_le_sub_right waited horizon)⟩

omit [IsOrderedAddMonoid τ] in
theorem Keeps.append (keeps : Keeps horizon now times kept) (added : List τ) :
    Keeps horizon now (times ++ added) (kept ++ added) := by
  obtain ⟨dropped, rfl, old⟩ := keeps
  exact ⟨dropped, append_assoc dropped kept added, old⟩

omit [IsOrderedAddMonoid τ] in
/-- Times beyond the horizon may be dropped from the front. -/
theorem Keeps.prune (keeps : Keeps horizon now times kept) :
    Keeps horizon now times (kept.dropWhile (· < now - horizon)) := by
  obtain ⟨dropped, rfl, old⟩ := keeps
  refine ⟨dropped ++ kept.takeWhile (· < now - horizon), ?_, ?_⟩
  · rw [append_assoc, takeWhile_append_dropWhile]
  · intro time member
    rcases mem_append.mp member with before | taken
    · exact old time before
    · simpa using mem_takeWhile_imp taken

/-- What was dropped is recent in no window up to the horizon. -/
theorem Keeps.recent_eq (keeps : Keeps horizon now times kept) (narrow : width ≤ horizon) :
    recent times width now = recent kept width now := by
  obtain ⟨dropped, rfl, old⟩ := keeps
  have none : dropped.filter (fun time => decide (now - width ≤ time)) = [] := by
    rw [filter_eq_nil_iff]
    intro time member
    rw [decide_eq_true_eq, not_le]
    exact (old time member).trans_le (sub_le_sub_left narrow now)
  rw [recent, filter_append, none]
  rfl

theorem Keeps.room {limit count : Nat} (keeps : Keeps horizon now times kept)
    (narrow : width ≤ horizon) (room : Room limit width kept now count) :
    Room limit width times now count := by
  rw [Room, keeps.recent_eq narrow]
  exact room

end Keeps

end Obelus.Data.SlidingWindow
