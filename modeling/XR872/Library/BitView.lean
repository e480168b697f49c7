/-
Little-endian bit view of word lists.

A buffer is a list of fixed-width words. Bit `j` of the buffer is bit `j % w`
of word `j / w`, the layout in which a list of words and the bytes it occupies
in memory are the same bit string. Shifting, cutting and re-chunking a buffer
are described by what they do to this one numbering.
-/

import Mathlib

namespace XR872.BitView

abbrev Byte := BitVec 8

/-- Bit `j` of a word list, least significant bit first; false past the end. -/
def bitAt {w : Nat} (words : List (BitVec w)) (j : Nat) : Bool :=
  (words.getD (j / w) 0#w).getLsbD (j % w)

theorem bitAt_of_length_le {w : Nat} (positive : 0 < w)
    (words : List (BitVec w)) (j : Nat) (past : w * words.length ≤ j) :
    bitAt words j = false := by
  have outside : words.length ≤ j / w := by
    rw [Nat.le_div_iff_mul_le positive, Nat.mul_comm]
    exact past
  unfold bitAt
  rw [List.getD_eq_default _ _ outside]
  exact BitVec.getLsbD_zero

theorem bitAt_cons_lt {w : Nat} (word : BitVec w) (rest : List (BitVec w))
    (j : Nat) (within : j < w) :
    bitAt (word :: rest) j = word.getLsbD j := by
  unfold bitAt
  rw [Nat.div_eq_of_lt within, Nat.mod_eq_of_lt within]
  rfl

theorem bitAt_cons_add {w : Nat} (positive : 0 < w) (word : BitVec w)
    (rest : List (BitVec w)) (j : Nat) :
    bitAt (word :: rest) (w + j) = bitAt rest j := by
  unfold bitAt
  rw [Nat.add_div_left j positive, Nat.add_mod_left]
  rfl

/-- Every index of a non-empty buffer is in its first word or past it. -/
theorem bitAt_cons {w : Nat} (positive : 0 < w) (word : BitVec w)
    (rest : List (BitVec w)) (j : Nat) :
    bitAt (word :: rest) j =
      if j < w then word.getLsbD j else bitAt rest (j - w) := by
  by_cases within : j < w
  · rw [if_pos within, bitAt_cons_lt word rest j within]
  · rw [if_neg within]
    have split : j = w + (j - w) := by omega
    rw [split, bitAt_cons_add positive]
    congr 1
    omega

theorem bitAt_drop {w : Nat} (positive : 0 < w) (words : List (BitVec w))
    (count j : Nat) :
    bitAt (words.drop count) j = bitAt words (w * count + j) := by
  unfold bitAt
  rw [Nat.mul_add_mod, Nat.mul_add_div positive]
  simp only [List.getD_eq_getElem?_getD, List.getElem?_drop]

theorem bitAt_take {w : Nat} (positive : 0 < w) (words : List (BitVec w))
    (count j : Nat) :
    bitAt (words.take count) j =
      (decide (j < w * count) && bitAt words j) := by
  have sameIndex : j / w < count ↔ j < w * count := by
    rw [Nat.div_lt_iff_lt_mul positive, Nat.mul_comm]
  unfold bitAt
  by_cases within : j < w * count
  · have kept : j / w < count := sameIndex.mpr within
    simp [within, kept]
  · have dropped : ¬ j / w < count := fun kept => within (sameIndex.mp kept)
    simp [within, dropped]

theorem bitAt_append {w : Nat} (positive : 0 < w)
    (left right : List (BitVec w)) (j : Nat) :
    bitAt (left ++ right) j =
      if j < w * left.length then bitAt left j
      else bitAt right (j - w * left.length) := by
  by_cases within : j < w * left.length
  · have kept : j / w < left.length := by
      rw [Nat.div_lt_iff_lt_mul positive, Nat.mul_comm]
      exact within
    rw [if_pos within]
    unfold bitAt
    simp [List.getElem?_append_left kept]
  · rw [if_neg within]
    have beyond : w * left.length ≤ j := Nat.le_of_not_lt within
    have split : j = w * left.length + (j - w * left.length) := by omega
    conv_lhs => rw [split]
    rw [← bitAt_drop positive, List.drop_left]

theorem bitAt_map_range {w : Nat} (positive : 0 < w) (count : Nat)
    (word : Nat → BitVec w) (j : Nat) :
    bitAt ((List.range count).map word) j =
      (decide (j < w * count) && (word (j / w)).getLsbD (j % w)) := by
  have sameIndex : j / w < count ↔ j < w * count := by
    rw [Nat.div_lt_iff_lt_mul positive, Nat.mul_comm]
  unfold bitAt
  by_cases within : j < w * count
  · have present : j / w < count := sameIndex.mpr within
    simp [within, present]
  · have absent : count ≤ j / w :=
      Nat.le_of_not_lt fun present => within (sameIndex.mp present)
    simp [within, absent]

/-- Two buffers of one length with the same bits are the same buffer. -/
theorem ext_of_bitAt {w : Nat} (left right : List (BitVec w))
    (sameLength : left.length = right.length)
    (sameBits : ∀ j < w * left.length, bitAt left j = bitAt right j) :
    left = right := by
  apply List.ext_getElem sameLength
  intro index leftBound rightBound
  apply BitVec.eq_of_getLsbD_eq
  intro bit bitBound
  have positive : 0 < w := Nat.lt_of_le_of_lt (Nat.zero_le bit) bitBound
  have within : w * index + bit < w * left.length := by
    calc w * index + bit < w * index + w := by omega
      _ = w * (index + 1) := by rw [Nat.mul_add, Nat.mul_one]
      _ ≤ w * left.length := Nat.mul_le_mul_left w leftBound
  have agree := sameBits (w * index + bit) within
  unfold bitAt at agree
  rw [Nat.mul_add_div positive, Nat.div_eq_of_lt bitBound, Nat.mul_add_mod,
    Nat.mod_eq_of_lt bitBound, Nat.add_zero] at agree
  simpa [leftBound, rightBound] using agree

/-! ### Funnel shift -/

/-- Shift a word list down by `shift` bits: every word takes its missing high
bits from its successor and the last word takes none. -/
def funnel {w : Nat} (shift : Nat) : List (BitVec w) → List (BitVec w)
  | [] => []
  | [last] => [last >>> shift]
  | word :: next :: rest =>
      ((word >>> shift) ||| (next <<< (w - shift))) ::
        funnel shift (next :: rest)

theorem funnel_length {w : Nat} (shift : Nat) (words : List (BitVec w)) :
    (funnel shift words).length = words.length := by
  induction words with
  | nil => rfl
  | cons word rest ih =>
      cases rest with
      | nil => rfl
      | cons next tail =>
          simp only [funnel, List.length_cons] at ih ⊢
          omega

theorem bitAt_funnel {w : Nat} (shift : Nat) (small : shift < w)
    (words : List (BitVec w)) (j : Nat) :
    bitAt (funnel shift words) j = bitAt words (j + shift) := by
  have positive : 0 < w := Nat.lt_of_le_of_lt (Nat.zero_le shift) small
  induction words generalizing j with
  | nil => simp [funnel, bitAt]
  | cons word rest ih =>
      cases rest with
      | nil =>
          simp only [funnel]
          rw [bitAt_cons positive, bitAt_cons positive]
          by_cases within : j < w
          · rw [if_pos within, BitVec.getLsbD_ushiftRight, Nat.add_comm]
            split
            · rfl
            · rename_i past
              rw [BitVec.getLsbD_of_ge _ _ (by omega)]
              rw [bitAt_of_length_le positive _ _ (by simp)]
          · rw [if_neg within, if_neg (by omega)]
            rw [bitAt_of_length_le positive _ _ (by simp),
              bitAt_of_length_le positive _ _ (by simp)]
      | cons next tail =>
          simp only [funnel]
          rw [bitAt_cons positive, bitAt_cons positive word]
          by_cases within : j < w
          · rw [if_pos within, BitVec.getLsbD_or,
              BitVec.getLsbD_ushiftRight, BitVec.getLsbD_shiftLeft]
            -- The seam: bits below `w - shift` come from this word, the rest
            -- from the successor.
            by_cases own : j + shift < w
            · have low : j < w - shift := by omega
              rw [if_pos own]
              simp [within, low, Nat.add_comm]
            · rw [if_neg own]
              have next_bit : j + shift - w = j - (w - shift) := by omega
              have high : ¬ j < w - shift := by omega
              rw [BitVec.getLsbD_of_ge word _ (by omega), next_bit,
                bitAt_cons_lt next tail _ (by omega)]
              simp [within, high]
          · rw [if_neg within, if_neg (by omega), ih]
            congr 1
            omega

/-! ### Words and bytes -/

/-- The bytes a word occupies in little-endian memory. -/
def toBytes {n : Nat} (word : BitVec n) : List Byte :=
  (List.range (n / 8)).map fun index => word.extractLsb' (8 * index) 8

theorem toBytes_length {n : Nat} (word : BitVec n) :
    (toBytes word).length = n / 8 := by
  simp [toBytes]

theorem bitAt_toBytes {n : Nat} (whole : 8 ∣ n) (word : BitVec n) (j : Nat) :
    bitAt (toBytes word) j = word.getLsbD j := by
  have size : 8 * (n / 8) = n := Nat.mul_div_cancel' whole
  by_cases within : j < n
  · have index : j / 8 < n / 8 := by omega
    have bit : j % 8 < 8 := Nat.mod_lt _ (by decide)
    simp only [bitAt, toBytes, List.getD_eq_getElem?_getD, List.getElem?_map,
      List.getElem?_range index, Option.map_some, Option.getD_some,
      BitVec.getLsbD_extractLsb', bit, decide_true, Bool.true_and]
    rw [Nat.div_add_mod]
  · rw [BitVec.getLsbD_of_ge word j (by omega),
      bitAt_of_length_le (by decide) _ _ (by rw [toBytes_length]; omega)]

theorem bitAt_flatMap_toBytes {n : Nat} (positive : 0 < n) (whole : 8 ∣ n)
    (words : List (BitVec n)) (j : Nat) :
    bitAt (words.flatMap toBytes) j = bitAt words j := by
  induction words generalizing j with
  | nil => simp [bitAt]
  | cons word rest ih =>
      have size : 8 * (toBytes word).length = n := by
        rw [toBytes_length]
        exact Nat.mul_div_cancel' whole
      rw [List.flatMap_cons, bitAt_append (by decide), size, bitAt_cons positive,
        bitAt_toBytes whole, ih]

theorem flatMap_toBytes_length {n : Nat} (words : List (BitVec n)) :
    (words.flatMap toBytes).length = n / 8 * words.length := by
  induction words with
  | nil => simp
  | cons word rest ih =>
      rw [List.flatMap_cons, List.length_append, toBytes_length, ih,
        List.length_cons, Nat.mul_add, Nat.mul_one, Nat.add_comm]

/-- The `n`-bit word loaded from the head of a byte buffer. -/
def ofBytes (n : Nat) : List Byte → BitVec n
  | [] => 0#n
  | byte :: rest => byte.setWidth n ||| (ofBytes n rest <<< 8)

theorem getLsbD_ofBytes (n : Nat) (bytes : List Byte) (j : Nat) :
    (ofBytes n bytes).getLsbD j = (decide (j < n) && bitAt bytes j) := by
  induction bytes generalizing j with
  | nil => simp [ofBytes, bitAt]
  | cons byte rest ih =>
      rw [ofBytes, BitVec.getLsbD_or, BitVec.getLsbD_setWidth,
        BitVec.getLsbD_shiftLeft, ih, bitAt_cons (by decide)]
      by_cases within : j < n
      · by_cases first : j < 8
        · simp [within, first]
        · have later : j - 8 < n := by omega
          simp [within, first, later, BitVec.getLsbD_of_ge byte j (by omega)]
      · simp [within]

end XR872.BitView
