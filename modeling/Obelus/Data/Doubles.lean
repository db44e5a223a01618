import Mathlib.Data.Int.Log
import Mathlib.Data.Rat.Floor
import Mathlib.Tactic.Positivity

/-!
# Doubles

The rounding of a rational to a binary floating-point number with 53 bits, ties
to even, with the gradual underflow of the format.  Overflow is left out: the
numbers that are rounded here stay far below it.
-/

namespace Obelus.Data.Doubles

/-- The closest integer, and the even one of two that are equally close. -/
def nearestEven (number : ℚ) : ℤ :=
  let low := ⌊number⌋
  let rest := number - low
  if rest < 1 / 2 then low
  else if 1 / 2 < rest then low + 1
  else if low % 2 = 0 then low else low + 1

/-- The exponent of the last bit of the double for a number. -/
def lastBit (number : ℚ) : ℤ :=
  max (Int.log 2 |number| - 52) (-1074)

/-- The double for a number. -/
def double (number : ℚ) : ℚ :=
  nearestEven (number / 2 ^ lastBit number) * 2 ^ lastBit number

/-- The closest integer, and the greater one of two that are equally close. -/
def roundHalfUp (number : ℚ) : ℤ :=
  ⌊number + 1 / 2⌋

theorem abs_nearestEven_sub_le (number : ℚ) : |nearestEven number - number| ≤ 1 / 2 := by
  have low : (⌊number⌋ : ℚ) ≤ number := Int.floor_le number
  have high : number < ⌊number⌋ + 1 := Int.lt_floor_add_one number
  unfold nearestEven
  simp only
  split_ifs
  all_goals
    rw [abs_le]
    push_cast
    constructor <;> linarith

@[simp]
theorem nearestEven_intCast (number : ℤ) : nearestEven number = number := by
  simp [nearestEven]

theorem two_pow_lastBit_pos (number : ℚ) : (0 : ℚ) < 2 ^ lastBit number :=
  zpow_pos (by norm_num) _

/-- Rounding to doubles moves a number by at most half its last bit. -/
theorem abs_double_sub_le_lastBit (number : ℚ) :
    |double number - number| ≤ 2 ^ lastBit number / 2 := by
  have unit : (0 : ℚ) < 2 ^ lastBit number := two_pow_lastBit_pos number
  have scaled : double number - number =
      (nearestEven (number / 2 ^ lastBit number) - number / 2 ^ lastBit number) *
        2 ^ lastBit number := by
    rw [sub_mul, div_mul_cancel₀ _ unit.ne']
    rfl
  rw [scaled, abs_mul, abs_of_pos unit]
  have close := abs_nearestEven_sub_le (number / 2 ^ lastBit number)
  calc |(nearestEven (number / 2 ^ lastBit number) : ℚ) - number / 2 ^ lastBit number| *
        2 ^ lastBit number
      ≤ 1 / 2 * 2 ^ lastBit number := by gcongr
    _ = 2 ^ lastBit number / 2 := by ring

@[simp]
theorem double_zero : double 0 = 0 := by
  simp [double, nearestEven]

/-- The relative error of rounding, and what is added to it near zero. -/
theorem abs_double_sub_le (number : ℚ) :
    |double number - number| ≤ |number| / 2 ^ 53 + 1 / 2 ^ 64 := by
  rcases eq_or_ne number 0 with rfl | nonzero
  · norm_num
  · have below : (2 : ℚ) ^ Int.log 2 |number| ≤ |number| :=
      Int.zpow_log_le_self (by norm_num) (abs_pos.mpr nonzero)
    have tiny : (2 : ℚ) ^ (-1074 : ℤ) ≤ 2 ^ (-64 : ℤ) :=
      zpow_le_zpow_right₀ (by norm_num) (by norm_num)
    have bits : (2 : ℚ) ^ lastBit number ≤ 2 ^ (Int.log 2 |number| - 52) + 2 ^ (-1074 : ℤ) := by
      unfold lastBit
      rcases le_total (Int.log 2 |number| - 52) (-1074) with low | high
      · rw [max_eq_right low]
        exact le_add_of_nonneg_left (zpow_nonneg (by norm_num) _)
      · rw [max_eq_left high]
        exact le_add_of_nonneg_right (zpow_nonneg (by norm_num) _)
    rw [zpow_sub₀ (by norm_num)] at bits
    calc |double number - number|
        ≤ 2 ^ lastBit number / 2 := abs_double_sub_le_lastBit number
      _ ≤ (2 ^ Int.log 2 |number| / 2 ^ (52 : ℤ) + 2 ^ (-1074 : ℤ)) / 2 := by gcongr
      _ ≤ (|number| / 2 ^ (52 : ℤ) + 2 ^ (-64 : ℤ)) / 2 := by gcongr
      _ ≤ |number| / 2 ^ 53 + 1 / 2 ^ 64 := by norm_num; linarith

/-- A number whose bits all stand above the last one is its own double. -/
theorem double_of_bits {number : ℚ} {bits : ℤ} {places : ℕ} (hasBits : number * 2 ^ places = bits)
    (few : |bits| < 2 ^ 53) (shallow : places ≤ 1074) : double number = number := by
  rcases eq_or_ne number 0 with rfl | nonzero
  · exact double_zero
  have power : (0 : ℚ) < 2 ^ places := by positivity
  have low : lastBit number ≤ -places := by
    have small : |number| < ((2 : ℕ) : ℚ) ^ ((53 : ℤ) - places) := by
      have scaled : |number| * 2 ^ places = |(bits : ℚ)| := by
        rw [← hasBits, abs_mul, abs_of_pos power]
      rw [zpow_sub₀ (by norm_num), lt_div_iff₀ (by positivity)]
      norm_num
      rw [scaled]
      exact_mod_cast few
    have := (Int.lt_zpow_iff_log_lt (by norm_num) (abs_pos.mpr nonzero)).mp small
    apply max_le <;> omega
  obtain ⟨above, same⟩ : ∃ above : ℕ, (above : ℤ) = -places - lastBit number :=
    ⟨(-places - lastBit number).toNat, by omega⟩
  have whole : number / 2 ^ lastBit number = ((bits * 2 ^ above : ℤ) : ℚ) := by
    rw [show lastBit number = -places - above by omega, zpow_sub₀ (by norm_num)]
    push_cast
    rw [← hasBits]
    field_simp
    norm_num [mul_comm]
  unfold double
  rw [whole, nearestEven_intCast, ← whole, div_mul_cancel₀ _ (two_pow_lastBit_pos number).ne']

theorem double_nonneg {number : ℚ} (nonneg : 0 ≤ number) : 0 ≤ double number := by
  apply mul_nonneg
  · have low : (0 : ℤ) ≤ ⌊number / 2 ^ lastBit number⌋ :=
      Int.floor_nonneg.mpr (div_nonneg nonneg (two_pow_lastBit_pos number).le)
    have high : (0 : ℤ) ≤ ⌊number / 2 ^ lastBit number⌋ + 1 := by omega
    unfold nearestEven
    simp only
    split_ifs <;> exact_mod_cast ‹_›
  · exact (two_pow_lastBit_pos number).le

/-- The error of a double that is multiplied and rounded again. -/
theorem abs_double_mul_sub_le {number factor : ℚ} (nonneg : 0 ≤ number) (grows : 0 ≤ factor) :
    |double (double number * factor) - number * factor| ≤
      number * factor / 2 ^ 51 + (factor + 1) / 2 ^ 63 := by
  have inner : |double number - number| ≤ number / 2 ^ 53 + 1 / 2 ^ 64 := by
    simpa only [abs_of_nonneg nonneg] using abs_double_sub_le number
  have scaled : |double number * factor - number * factor| ≤
      number * factor / 2 ^ 53 + factor / 2 ^ 64 := by
    rw [← sub_mul, abs_mul, abs_of_nonneg grows]
    calc |double number - number| * factor
        ≤ (number / 2 ^ 53 + 1 / 2 ^ 64) * factor := by gcongr
      _ = number * factor / 2 ^ 53 + factor / 2 ^ 64 := by ring
  have outer := abs_double_sub_le (double number * factor)
  rw [abs_of_nonneg (mul_nonneg (double_nonneg nonneg) grows)] at outer
  rw [abs_le] at scaled outer ⊢
  constructor <;> linarith

end Obelus.Data.Doubles
