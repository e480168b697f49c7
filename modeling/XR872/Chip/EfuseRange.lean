/-
What `HAL_EFUSE_Read` touches on the way to its result.

The word count is taken from the first bit after the window and not from its
last one. A window that ends on a word boundary therefore loads one word more
than it needs, which at the end of the array is a word the array does not have,
and a window that also starts on one is merged by a shift of 32.
-/

import XR872.Chip.EfuseRead

namespace XR872.Chip.Efuse

open XR872.BitView

/-! ### Accesses -/

/-- `word_cnt`, a `uint8_t`. -/
def readWordCnt (startBit bitNum : Nat) : Nat :=
  ((startBit + bitNum) / 32 - startBit / 32 + 1) % 256

/-- The arguments of `EFUSE_ReadData`, in order. -/
def readIndices (startBit bitNum : Nat) : List Nat :=
  (List.range (readWordCnt startBit bitNum)).map (startBit / 32 + ·)

/-- The word buffer after the loads. -/
def sidData (sid : BitVec 2048) (startBit bitNum : Nat) : List (BitVec 32) :=
  (readIndices startBit bitNum).map (efuseReadData sid)

/-- The shift amounts of the merging loop and of the last word. -/
def funnelShifts {w : Nat} (shift : Nat) : List (BitVec w) → List Nat
  | [] => []
  | [_] => [shift]
  | _ :: next :: rest => shift :: (w - shift) :: funnelShifts shift (next :: rest)

theorem readWordCnt_eq (startBit bitNum : Nat)
    (fits : startBit + bitNum ≤ 2048) :
    readWordCnt startBit bitNum =
      (startBit + bitNum) / 32 - startBit / 32 + 1 := by
  unfold readWordCnt
  omega

theorem sidData_length (sid : BitVec 2048) (startBit bitNum : Nat) :
    (sidData sid startBit bitNum).length = readWordCnt startBit bitNum := by
  rw [sidData, readIndices, List.length_map, List.length_map,
    List.length_range]

theorem mem_readIndices (startBit bitNum index : Nat)
    (fits : startBit + bitNum ≤ 2048) :
    index ∈ readIndices startBit bitNum ↔
      startBit / 32 ≤ index ∧ index ≤ (startBit + bitNum) / 32 := by
  have ordered : startBit / 32 ≤ (startBit + bitNum) / 32 :=
    Nat.div_le_div_right (Nat.le_add_right _ _)
  simp only [readIndices, readWordCnt_eq _ _ fits, List.mem_map,
    List.mem_range]
  constructor
  · rintro ⟨offset, loaded, rfl⟩
    omega
  · rintro ⟨first, last⟩
    exact ⟨index - startBit / 32, by omega, by omega⟩

/-- With one word there is nothing to merge; with more, both the offset and its
complement are shift amounts. -/
theorem funnelShifts_below_iff {w : Nat} (shift : Nat) (small : shift < w)
    (words : List (BitVec w)) :
    (∀ amount ∈ funnelShifts shift words, amount < w) ↔
      words.length ≤ 1 ∨ 0 < shift := by
  induction words with
  | nil => simp [funnelShifts]
  | cons word rest ih =>
      cases rest with
      | nil => simp [funnelShifts, small]
      | cons next tail =>
          constructor
          · intro below
            have complement : w - shift < w :=
              below (w - shift) (by simp [funnelShifts])
            right
            omega
          · rintro (single | positive)
            · simp at single
            · have later := ih.mpr (Or.inr positive)
              intro amount listed
              unfold funnelShifts at listed
              rcases List.mem_cons.mp listed with own | listed
              · omega
              · rcases List.mem_cons.mp listed with complement | listed
                · omega
                · exact later amount listed

/-! ### The range -/

/-- Every access of an admitted read: word indices inside the array, shifts
below the word size, and the copied bytes inside the `word_cnt * 4` allocated
ones. -/
structure ReadInRange (arch : ChipArchVer) (startBit bitNum : Nat)
    (sid : BitVec 2048) : Prop where
  indices : ∀ index ∈ readIndices startBit bitNum,
    index < halEfuseBitNum arch / 32
  shifts : ∀ amount ∈
      funnelShifts (startBit % 32) (sidData sid startBit bitNum),
    amount < 32
  copied : (bitNum + 7) / 8 ≤ readWordCnt startBit bitNum * 4

theorem readIndices_below_iff (arch : ChipArchVer) (startBit bitNum : Nat)
    (fits : startBit + bitNum ≤ 2048) :
    (∀ index ∈ readIndices startBit bitNum,
        index < halEfuseBitNum arch / 32) ↔
      startBit + bitNum < halEfuseBitNum arch := by
  have whole : 32 * (halEfuseBitNum arch / 32) = halEfuseBitNum arch := by
    cases arch <;> rfl
  have ordered : startBit / 32 ≤ (startBit + bitNum) / 32 :=
    Nat.div_le_div_right (Nat.le_add_right _ _)
  constructor
  · intro below
    have last := below ((startBit + bitNum) / 32)
      ((mem_readIndices startBit bitNum _ fits).mpr ⟨ordered, Nat.le_refl _⟩)
    omega
  · intro inside index listed
    have upper := ((mem_readIndices startBit bitNum index fits).mp listed).2
    omega

theorem copied_le_allocated (startBit bitNum : Nat)
    (fits : startBit + bitNum ≤ 2048) :
    (bitNum + 7) / 8 ≤ readWordCnt startBit bitNum * 4 := by
  rw [readWordCnt_eq _ _ fits]
  omega

/-- An admitted read stays in range exactly when its window ends before the
array does and, if it starts on a word boundary, inside the word it starts
in. -/
theorem readInRange_iff (arch : ChipArchVer) (startBit bitNum : Nat)
    (sid : BitVec 2048)
    (accepted : halEfuseRejects arch startBit bitNum = false) :
    ReadInRange arch startBit bitNum sid ↔
      startBit + bitNum < halEfuseBitNum arch ∧
        (startBit % 32 ≠ 0 ∨ (startBit + bitNum) / 32 = startBit / 32) := by
  have fits : startBit + bitNum ≤ 2048 :=
    Nat.le_trans
      ((halEfuseRejects_eq_false_iff arch startBit bitNum).mp accepted).2
      (halEfuseBitNum_le arch)
  have small : startBit % 32 < 32 := Nat.mod_lt _ (by decide)
  have shifts := funnelShifts_below_iff (startBit % 32) small
    (sidData sid startBit bitNum)
  rw [sidData_length, readWordCnt_eq _ _ fits] at shifts
  constructor
  · intro range
    refine ⟨(readIndices_below_iff arch startBit bitNum fits).mp range.indices, ?_⟩
    rcases shifts.mp range.shifts with single | unaligned
    · right
      omega
    · left
      omega
  · rintro ⟨inside, merged⟩
    refine ⟨(readIndices_below_iff arch startBit bitNum fits).mpr inside,
      shifts.mpr ?_, copied_le_allocated startBit bitNum fits⟩
    rcases merged with unaligned | single
    · right
      omega
    · left
      omega

/-- The last word of the array, read whole: word 32 of 32 is loaded and merged
by a shift of 32. -/
theorem read_last_word_out_of_range :
    halEfuseRejects .two 992 32 = false ∧
      32 ∈ readIndices 992 32 ∧
      halEfuseBitNum .two / 32 = 32 ∧
      32 ∈ funnelShifts (992 % 32) (sidData 0 992 32) ∧
      ¬ ReadInRange .two 992 32 0 := by
  refine ⟨by decide, by decide, rfl, by decide +kernel, ?_⟩
  intro range
  have below := range.indices 32 (by decide)
  exact absurd below (by decide)

/-- The six MAC flag fuses are read inside word 16. -/
theorem readInRange_iff_flags :
    ReadInRange .two 522 6 0 ↔
      522 + 6 < halEfuseBitNum .two ∧
        (522 % 32 ≠ 0 ∨ (522 + 6) / 32 = 522 / 32) :=
  readInRange_iff .two 522 6 0 (by decide)

end XR872.Chip.Efuse
