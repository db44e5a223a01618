import Mathlib.Data.Nat.Bitwise
import Mathlib.Tactic.Ring

/-!
# Blocks of addresses

An address is the number that its words write, most significant first.  A block is an
address prefix: the addresses that have its first bits.
-/

namespace Obelus.Data

open List

/-- The number that words of `width` bits write. -/
def wordsValue (width : Nat) (words : List Nat) : Nat :=
  words.foldl (fun value word => value * 2 ^ width + word) 0

/-- The addresses that agree with `base` above the `free` low bits. -/
structure AddressBlock where
  base : Nat
  free : Nat

def AddressBlock.Contains (block : AddressBlock) (address : Nat) : Prop :=
  address / 2 ^ block.free = block.base / 2 ^ block.free

instance (block : AddressBlock) (address : Nat) : Decidable (block.Contains address) :=
  inferInstanceAs (Decidable (_ = _))

/-- The block `words/length`, as it is written. -/
def AddressBlock.ofPrefix (width : Nat) (words : List Nat) (length : Nat) : AddressBlock where
  base := wordsValue width words
  free := width * words.length - length

/-- A mask of the bits from `low` on keeps these bits. -/
theorem and_highBits {word high low : Nat} (bounded : word < 2 ^ high) (le : low ≤ high) :
    word &&& (2 ^ high - 2 ^ low) = word / 2 ^ low * 2 ^ low := by
  have mask : 2 ^ high - 2 ^ low = (2 ^ (high - low) - 1) * 2 ^ low := by
    rw [Nat.sub_mul, one_mul, ← pow_add, Nat.sub_add_cancel le]
  apply Nat.eq_of_testBit_eq
  intro bit
  rw [mask, Nat.testBit_and, Nat.testBit_mul_two_pow, Nat.testBit_mul_two_pow,
    Nat.testBit_div_two_pow]
  rcases Nat.lt_or_ge bit low with below | above
  · simp [Nat.not_le.mpr below]
  · rw [Nat.sub_add_cancel above]
    rcases Nat.lt_or_ge bit high with inside | beyond
    · simp [above, show bit - low < high - low by omega]
    · have zero : word.testBit bit = false :=
        Nat.testBit_eq_false_of_lt (bounded.trans_le (Nat.pow_le_pow_right (by decide) beyond))
      simp [zero]

@[simp]
theorem wordsValue_nil (width : Nat) : wordsValue width [] = 0 :=
  rfl

theorem foldl_words (width value : Nat) (words : List Nat) :
    words.foldl (fun value word => value * 2 ^ width + word) value =
      value * 2 ^ (width * words.length) + wordsValue width words := by
  induction words generalizing value with
  | nil => simp
  | cons word rest ih =>
    rw [wordsValue, foldl_cons, foldl_cons, ih, ih (0 * 2 ^ width + word), length_cons]
    ring

theorem wordsValue_cons (width word : Nat) (rest : List Nat) : wordsValue width (word :: rest) =
      word * 2 ^ (width * rest.length) + wordsValue width rest := by
  rw [wordsValue, foldl_cons, foldl_words]
  ring

theorem wordsValue_lt {width : Nat} {words : List Nat}
    (bounded : ∀ word ∈ words, word < 2 ^ width) :
    wordsValue width words < 2 ^ (width * words.length) := by
  induction words with
  | nil => simp
  | cons word rest ih =>
    have low := ih fun other member => bounded other (.tail _ member)
    have high : (word + 1) * 2 ^ (width * rest.length) ≤
        2 ^ width * 2 ^ (width * rest.length) :=
      Nat.mul_le_mul_right _ (bounded word mem_cons_self)
    rw [wordsValue_cons, length_cons, Nat.mul_succ, pow_add, Nat.mul_comm (2 ^ _)]
    rw [Nat.add_mul] at high
    omega

/-- The first `length` bits of the words agree. -/
def PrefixAgrees (width : Nat) : Nat → List Nat → List Nat → Prop
  | length, word :: words, base :: bases =>
    if length ≤ width then word / 2 ^ (width - length) = base / 2 ^ (width - length)
    else word = base ∧ PrefixAgrees width (length - width) words bases
  | _, _, _ => True

/-- A word above the words of a number, cut at a bit of the number. -/
theorem div_above {size free : Nat} (le : free ≤ size) (word low : Nat) :
    (word * 2 ^ size + low) / 2 ^ free = word * 2 ^ (size - free) + low / 2 ^ free := by
  have whole : word * 2 ^ size = word * 2 ^ (size - free) * 2 ^ free := by
    rw [Nat.mul_assoc, ← pow_add, Nat.sub_add_cancel le]
  rw [whole, Nat.mul_comm _ (2 ^ free), Nat.mul_add_div (Nat.two_pow_pos free)]

/-- A word above the words of a number, cut at a bit of the word. -/
theorem div_within {size : Nat} (bit word : Nat) {low : Nat} (bounded : low < 2 ^ size) :
    (word * 2 ^ size + low) / 2 ^ (size + bit) = word / 2 ^ bit := by
  rw [pow_add, ← Nat.div_div_eq_div_mul, Nat.mul_comm word, Nat.mul_add_div (Nat.two_pow_pos size),
    Nat.div_eq_of_lt bounded, Nat.add_zero]

theorem div_lt_above {size free low : Nat} (le : free ≤ size) (bounded : low < 2 ^ size) :
    low / 2 ^ free < 2 ^ (size - free) := by
  apply Nat.div_lt_of_lt_mul
  rwa [← pow_add, Nat.add_sub_cancel' le]

/-- The parts above and below a bound are determined by the number. -/
theorem eq_of_above {size high high' low low' : Nat} (bounded : low < size)
    (bounded' : low' < size) (same : high * size + low = high' * size + low') :
    high = high' ∧ low = low' := by
  have lows := congrArg (· % size) same
  simp only [Nat.mul_add_mod', Nat.mod_eq_of_lt bounded, Nat.mod_eq_of_lt bounded'] at lows
  subst lows
  have positive := Nat.zero_lt_of_lt bounded
  exact ⟨Nat.eq_of_mul_eq_mul_right positive (Nat.add_right_cancel same), rfl⟩

/-- An address of a block has its first words. -/
theorem contains_ofPrefix {width length : Nat} {words bases : List Nat}
    (contains : (AddressBlock.ofPrefix width bases length).Contains (wordsValue width words))
    (sameLength : words.length = bases.length) (wordBound : ∀ word ∈ words, word < 2 ^ width)
    (baseBound : ∀ base ∈ bases, base < 2 ^ width) (le : length ≤ width * bases.length) :
    PrefixAgrees width length words bases := by
  induction words generalizing bases length with
  | nil => trivial
  | cons word words ih =>
    cases bases with
    | nil => trivial
    | cons base bases =>
      have sameRest : words.length = bases.length := Nat.succ.inj sameLength
      have wordsBound := wordsValue_lt fun other member => wordBound other (.tail _ member)
      have basesBound := wordsValue_lt fun other member => baseBound other (.tail _ member)
      simp only [AddressBlock.Contains, AddressBlock.ofPrefix, wordsValue_cons, sameRest,
        length_cons, Nat.mul_succ] at contains le wordsBound
      rw [PrefixAgrees]
      split
      · have free : width * bases.length + width - length =
            width * bases.length + (width - length) := by omega
        rwa [free, div_within _ _ wordsBound, div_within _ _ basesBound] at contains
      · have free : width * bases.length + width - length ≤ width * bases.length := by omega
        rw [div_above free, div_above free] at contains
        obtain ⟨sameWord, sameLow⟩ := eq_of_above
          (div_lt_above free wordsBound) (div_lt_above free basesBound) contains
        refine ⟨sameWord, ih ?_ sameRest (fun other member => wordBound other (.tail _ member))
          (fun other member => baseBound other (.tail _ member)) (by omega)⟩
        have sameFree : width * bases.length - (length - width) =
            width * bases.length + width - length := by omega
        rwa [AddressBlock.ofPrefix, sameFree]

end Obelus.Data
