/-
Machine integers read as numbers.

A field stores the result of exact arithmetic cut to its width. What is read
back is the exact result exactly if it fits the field.
-/

import Mathlib

namespace XR872.MachineInts

/-- What an unsigned field of `w` bits stores of a number. -/
theorem toNat_ofInt (w : Nat) (value : Int) :
    ((BitVec.ofInt w value).toNat : Int) = value % 2 ^ w := by
  rw [BitVec.toNat_ofInt]
  have positive : (0 : Int) < 2 ^ w := by positivity
  have reduced := Int.emod_nonneg value (ne_of_gt positive)
  push_cast
  exact Int.toNat_of_nonneg reduced

/-- What a signed field of `w + 1` bits stores of a number. -/
theorem toInt_ofInt (w : Nat) (value : Int) :
    (BitVec.ofInt (w + 1) value).toInt =
      (value + 2 ^ w) % 2 ^ (w + 1) - 2 ^ w := by
  have positive : (0 : Int) < 2 ^ w := by positivity
  have double : (2 : Int) ^ (w + 1) = 2 * 2 ^ w := by ring
  rw [BitVec.toInt_ofInt, Int.bmod_def]
  push_cast
  rw [double]
  have split := Int.mul_ediv_add_emod value (2 * 2 ^ w)
  have low := Int.emod_nonneg value (by omega : (2 : Int) * 2 ^ w ≠ 0)
  have high := Int.emod_lt_of_pos value (by omega : (0 : Int) < 2 * 2 ^ w)
  by_cases small : value % (2 * 2 ^ w) < 2 ^ w
  · rw [if_pos (by omega)]
    have same : (value + 2 ^ w) % (2 * 2 ^ w) =
        value % (2 * 2 ^ w) + 2 ^ w := by
      rw [← Int.emod_add_emod]
      exact Int.emod_eq_of_lt (by omega) (by omega)
    omega
  · rw [if_neg (by omega)]
    have same : (value + 2 ^ w) % (2 * 2 ^ w) =
        value % (2 * 2 ^ w) + 2 ^ w - 2 * 2 ^ w := by
      rw [← Int.emod_add_emod, ← Int.sub_emod_right]
      exact Int.emod_eq_of_lt (by omega) (by omega)
    omega

theorem toInt_ofInt_32 (value : Int) :
    (BitVec.ofInt 32 value).toInt =
      (value + 2147483648) % 4294967296 - 2147483648 :=
  toInt_ofInt 31 value

theorem toNat_ofInt_16 (value : Int) :
    ((BitVec.ofInt 16 value).toNat : Int) = value % 65536 :=
  toNat_ofInt 16 value

theorem toInt_range_32 (value : BitVec 32) :
    -2147483648 ≤ value.toInt ∧ value.toInt ≤ 2147483647 := by
  have low := BitVec.le_toInt value
  have high := BitVec.toInt_lt (x := value)
  norm_num at low high
  omega

theorem toInt_neg_32 (value : BitVec 32) :
    (-value).toInt =
      if value.toInt = -2147483648 then -2147483648 else -value.toInt := by
  have range := toInt_range_32 value
  rw [BitVec.toInt_neg, Int.bmod_def]
  norm_num
  split <;> split <;> omega

theorem ofInt_congr_32 (left right : Int)
    (same : left % 4294967296 = right % 4294967296) :
    BitVec.ofInt 32 left = BitVec.ofInt 32 right := by
  apply BitVec.eq_of_toInt_eq
  rw [toInt_ofInt_32, toInt_ofInt_32]
  omega

theorem toInt_add_ofNat_32 (value : BitVec 32) (number : Nat)
    (nonneg : 0 ≤ value.toInt)
    (small : value.toInt + number ≤ 2147483647) :
    (value + BitVec.ofNat 32 number).toInt = value.toInt + number := by
  have same : value + BitVec.ofNat 32 number =
      BitVec.ofInt 32 (value.toInt + number) := by
    rw [BitVec.ofInt_add, BitVec.ofInt_toInt, BitVec.ofInt_natCast]
  rw [same, toInt_ofInt_32]
  omega

theorem toInt_sub_ofNat_32 (value : BitVec 32) (number : Nat)
    (covered : (number : Int) ≤ value.toInt) :
    (value - BitVec.ofNat 32 number).toInt = value.toInt - number := by
  have range := toInt_range_32 value
  have same : value - BitVec.ofNat 32 number =
      BitVec.ofInt 32 (value.toInt - number) := by
    rw [sub_eq_iff_eq_add, ← BitVec.ofInt_natCast, ← BitVec.ofInt_add,
      sub_add_cancel, BitVec.ofInt_toInt]
  rw [same, toInt_ofInt_32]
  omega

/-! ### Masks -/

theorem and_high_bits (w k value : Nat) (le : k ≤ w) (low : value < 2 ^ w) :
    value &&& (2 ^ w - 1 - (2 ^ k - 1)) = value - value % 2 ^ k := by
  have mask : 2 ^ w - 1 - (2 ^ k - 1) = 2 ^ k * (2 ^ (w - k) - 1) := by
    have split : 2 ^ w = 2 ^ k * 2 ^ (w - k) := by
      rw [← Nat.pow_add, Nat.add_sub_cancel' le]
    have positive := Nat.two_pow_pos k
    rw [Nat.mul_sub, ← split]
    omega
  have quotient : (value &&& (2 ^ w - 1 - (2 ^ k - 1))) / 2 ^ k =
      value / 2 ^ k := by
    rw [Nat.and_div_two_pow, mask, Nat.mul_div_cancel_left _ (Nat.two_pow_pos k),
      Nat.and_two_pow_sub_one_eq_mod, Nat.mod_eq_of_lt]
    rw [Nat.div_lt_iff_lt_mul (Nat.two_pow_pos k), ← Nat.pow_add,
      Nat.sub_add_cancel le]
    exact low
  have remainder : (value &&& (2 ^ w - 1 - (2 ^ k - 1))) % 2 ^ k = 0 := by
    rw [Nat.and_mod_two_pow, mask, Nat.mul_mod_right, Nat.and_zero]
  have masked := Nat.div_add_mod (value &&& (2 ^ w - 1 - (2 ^ k - 1))) (2 ^ k)
  have whole := Nat.div_add_mod value (2 ^ k)
  rw [quotient, remainder] at masked
  omega

theorem and_top_bit (w value : Nat) (low : value < 2 ^ (w + 1)) :
    value &&& 2 ^ w = 0 ↔ value < 2 ^ w := by
  rw [Nat.and_two_pow]
  constructor
  · intro zero
    by_contra high
    obtain ⟨rest, same⟩ := Nat.exists_eq_add_of_le (Nat.le_of_not_lt high)
    rw [Nat.pow_succ] at low
    have small : rest < 2 ^ w := by omega
    rw [same, Nat.testBit_two_pow_add_eq, Nat.testBit_lt_two_pow small] at zero
    have positive := Nat.two_pow_pos w
    simp at zero
  · intro small
    rw [Nat.testBit_lt_two_pow small]
    simp

theorem or_top_bit (w value : Nat) (low : value < 2 ^ w) :
    value ||| 2 ^ w = value + 2 ^ w := by
  have add := Nat.two_pow_add_eq_or_of_lt low 1
  rw [Nat.mul_one] at add
  rw [Nat.or_comm, ← add, Nat.add_comm]

end XR872.MachineInts
