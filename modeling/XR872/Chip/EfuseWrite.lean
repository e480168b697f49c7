/-
What `HAL_EFUSE_Write` programs.

The word loop walks a 64-bit window over the buffer. Its invariant is that the
words below `wordIdx` have received their share of the data and the bits still
to come start at the beginning of word `wordIdx`.
-/

import XR872.Chip.EfuseRead

namespace XR872.Chip.Efuse

open XR872.BitView
open XR872.WriteOnce

/-! ### One word -/

theorem getLsbD_efuseMask (bitCnt : Nat) (word : BitVec 32) (j : Nat) :
    (efuseMask bitCnt word).getLsbD j =
      (decide (j < bitCnt) && word.getLsbD j) := by
  unfold efuseMask
  by_cases partial_word : bitCnt < 32
  · have mask_bit :
        ((1#32 <<< bitCnt) - 1#32).getLsbD j = decide (j < bitCnt) := by
      have bound : 2 ^ bitCnt < 2 ^ 32 :=
        Nat.pow_lt_pow_right (by decide) partial_word
      have positive : 0 < 2 ^ bitCnt := Nat.two_pow_pos bitCnt
      have value : ((1#32 <<< bitCnt) - 1#32).toNat = 2 ^ bitCnt - 1 := by
        rw [BitVec.toNat_sub, BitVec.toNat_shiftLeft, BitVec.toNat_ofNat,
          Nat.shiftLeft_eq]
        omega
      rw [← BitVec.testBit_toNat, value, Nat.testBit_two_pow_sub_one]
    rw [if_pos partial_word, BitVec.getLsbD_and, mask_bit, Bool.and_comm]
  · rw [if_neg partial_word]
    by_cases within : j < 32
    · have covered : j < bitCnt := by omega
      simp [covered]
    · simp [BitVec.getLsbD_of_ge word j (by omega)]

/-- Programming a word of the array sets the requested fuses that can take it. -/
theorem getLsbD_efuseWriteData (dev : Device) (index : Nat)
    (data : BitVec 32) (fuse : Nat) (addressable : index < 64) :
    (efuseWriteData dev index data).sid.getLsbD fuse =
      (dev.sid.getLsbD fuse ||
        (decide (32 * index ≤ fuse) && data.getLsbD (fuse - 32 * index) &&
          !dev.stuck.getLsbD fuse)) := by
  have address : 8 * efuseSetIndex index = 32 * index := by
    rw [efuseSetIndex_eq]
    omega
  rw [efuseWriteData, address]
  by_cases inside : fuse < 2048
  · by_cases reached : 32 * index ≤ fuse
    · have shifted : ¬ fuse < 32 * index := by omega
      simp [inside, reached, shifted]
    · have shifted : fuse < 32 * index := by omega
      simp [reached, shifted]
  · have high : 32 ≤ fuse - 32 * index := by omega
    simp [BitVec.getLsbD_of_ge _ fuse (by omega : 2048 ≤ fuse),
      BitVec.getLsbD_of_ge data _ high]

@[simp] theorem efuseWriteData_stuck (dev : Device) (index : Nat)
    (data : BitVec 32) :
    (efuseWriteData dev index data).stuck = dev.stuck := rfl

/-! ### The word loop -/

theorem halEfuseWriteLoop_frame (bitShift fuel bitCnt wordIdx : Nat)
    (data : List Byte) (dev : Device) :
    halEfuseWriteLoop bitShift fuel bitCnt wordIdx data dev =
      { dev with
        sid := (halEfuseWriteLoop bitShift fuel bitCnt wordIdx data dev).sid } := by
  induction fuel generalizing bitCnt wordIdx data dev with
  | zero => rfl
  | succ fuel ih =>
      unfold halEfuseWriteLoop
      split
      · rfl
      · exact ih _ _ _ _

/-- The word the loop programs holds the next 32 bits of the buffer, starting
where the previous word left off. -/
theorem getLsbD_loopWord (bitShift bitCnt : Nat) (small : bitShift < 32)
    (data : List Byte) (j : Nat) (within : j < 32) :
    (efuseMask bitCnt
        ((ofBytes 64 data <<< bitShift).extractLsb' 32 32)).getLsbD j =
      (decide (j < bitCnt) && bitAt data (32 - bitShift + j)) := by
  have inWindow : 32 + j < 64 := by omega
  have notShifted : ¬ 32 + j < bitShift := by omega
  have source : 32 + j - bitShift = 32 - bitShift + j := by omega
  have inBuffer : 32 - bitShift + j < 64 := by omega
  rw [getLsbD_efuseMask, BitVec.getLsbD_extractLsb', BitVec.getLsbD_shiftLeft,
    getLsbD_ofBytes, source]
  simp [within, inWindow, notShifted, inBuffer]

theorem getLsbD_halEfuseWriteLoop (bitShift fuel bitCnt wordIdx : Nat)
    (data : List Byte) (dev : Device) (fuse : Nat)
    (small : bitShift < 32) (enough : bitCnt ≤ fuel)
    (fits : 32 * wordIdx + bitCnt ≤ 2048) :
    (halEfuseWriteLoop bitShift fuel bitCnt wordIdx data dev).sid.getLsbD
        fuse =
      (dev.sid.getLsbD fuse ||
        (decide (32 * wordIdx ≤ fuse) && decide (fuse < 32 * wordIdx + bitCnt) &&
          bitAt data (32 - bitShift + (fuse - 32 * wordIdx)) &&
          !dev.stuck.getLsbD fuse)) := by
  induction fuel generalizing bitCnt wordIdx data dev with
  | zero =>
      have done : bitCnt = 0 := by omega
      subst done
      simp [halEfuseWriteLoop, ← Bool.decide_and]
  | succ fuel ih =>
      unfold halEfuseWriteLoop
      by_cases done : bitCnt = 0
      · subst done
        simp [← Bool.decide_and]
      · have addressable : wordIdx < 64 := by omega
        have remaining :
            (bitCnt - if bitCnt ≤ 32 then bitCnt else 32) = bitCnt - 32 := by
          split <;> omega
        rw [if_neg done]
        dsimp only
        rw [remaining, ih _ _ _ _ (by omega) (by omega),
          getLsbD_efuseWriteData _ _ _ _ addressable, efuseWriteData_stuck,
          bitAt_drop (by decide)]
        -- A fuse lies below this word, in it, or in a later one.
        by_cases below : fuse < 32 * wordIdx
        · have h1 : ¬ 32 * wordIdx ≤ fuse := by omega
          have h2 : ¬ 32 * (wordIdx + 1) ≤ fuse := by omega
          simp [h1, h2]
        · have reached : 32 * wordIdx ≤ fuse := by omega
          by_cases here : fuse < 32 * (wordIdx + 1)
          · have later : ¬ 32 * (wordIdx + 1) ≤ fuse := by omega
            have offset : fuse - 32 * wordIdx < 32 := by omega
            have same : fuse - 32 * wordIdx < bitCnt ↔
                fuse < 32 * wordIdx + bitCnt := by omega
            rw [getLsbD_loopWord bitShift bitCnt small data _ offset]
            simp [later, reached, same]
          · have later : 32 * (wordIdx + 1) ≤ fuse := by omega
            have high : 32 ≤ fuse - 32 * wordIdx := by omega
            have source :
                8 * 4 + (32 - bitShift + (fuse - 32 * (wordIdx + 1))) =
                  32 - bitShift + (fuse - 32 * wordIdx) := by omega
            have sameEnd :
                fuse < 32 * (wordIdx + 1) + (bitCnt - 32) ↔
                  fuse < 32 * wordIdx + bitCnt := by omega
            rw [source, BitVec.getLsbD_of_ge _ _ high]
            simp [later, reached, sameEnd]

/-! ### The whole write -/

/-- The first word and the loop together program exactly the window. -/
theorem halEfuseWrite_words (startBit bitNum bitCnt : Nat)
    (data : List Byte) (dev : Device)
    (fits : startBit + bitNum ≤ 2048) (positive : 0 < bitNum)
    (left : bitCnt = bitNum - (32 - startBit % 32)) :
    (halEfuseWriteLoop (startBit % 32) bitCnt bitCnt (startBit / 32 + 1) data
        (efuseWriteData dev (startBit / 32)
          (efuseMask bitNum (ofBytes 32 data) <<< (startBit % 32)))).sid =
      program dev.sid dev.stuck startBit bitNum data := by
  have small : startBit % 32 < 32 := Nat.mod_lt _ (by decide)
  apply BitVec.eq_of_getLsbD_eq
  intro fuse inside
  rw [getLsbD_halEfuseWriteLoop _ _ _ _ _ _ _ small (Nat.le_refl _) (by omega),
    getLsbD_efuseWriteData _ _ _ _ (by omega), efuseWriteData_stuck,
    getLsbD_program _ _ _ _ _ _ inside, BitVec.getLsbD_shiftLeft,
    getLsbD_efuseMask, getLsbD_ofBytes]
  by_cases before : fuse < startBit
  · have notReached : ¬ startBit ≤ fuse := by omega
    have notLooped : ¬ 32 * (startBit / 32 + 1) ≤ fuse := by omega
    by_cases firstWord : 32 * (startBit / 32) ≤ fuse
    · have shifted : fuse - 32 * (startBit / 32) < startBit % 32 := by omega
      simp [notReached, notLooped, shifted]
    · simp [notReached, notLooped, firstWord]
  · have reached : startBit ≤ fuse := by omega
    have inFirst : 32 * (startBit / 32) ≤ fuse := by omega
    by_cases looped : 32 * (startBit / 32 + 1) ≤ fuse
    · have source :
          32 - startBit % 32 + (fuse - 32 * (startBit / 32 + 1)) =
            fuse - startBit := by omega
      have high : ¬ fuse - 32 * (startBit / 32) < 32 := by omega
      have sameEnd :
          fuse < 32 * (startBit / 32 + 1) + bitCnt ↔
            fuse < startBit + bitNum := by omega
      rw [source]
      simp [reached, looped, high, sameEnd]
    · have source :
          fuse - 32 * (startBit / 32) - startBit % 32 = fuse - startBit := by
        omega
      have low : fuse - 32 * (startBit / 32) < 32 := by omega
      have notShifted :
          ¬ fuse - 32 * (startBit / 32) < startBit % 32 := by omega
      have inLoad : fuse - startBit < 32 := by omega
      have sameEnd : fuse - startBit < bitNum ↔ fuse < startBit + bitNum := by
        omega
      rw [source]
      simp [reached, looped, inFirst, low, notShifted, inLoad, sameEnd]

theorem halEfuseWrite_eq (arch : ChipArchVer) (startBit bitNum : Nat)
    (data : List Byte) (dev : Device)
    (accepted : halEfuseRejects arch startBit bitNum = false)
    (available : dev.available = true) :
    halEfuseWrite arch startBit bitNum data dev =
      (.ok, dev.withSid
        (program dev.sid dev.stuck startBit bitNum data)) := by
  have granted : (efuseAcquire dev).1 = .ok := of_decide_eq_true available
  have frame := efuseAcquire_frame dev
  obtain ⟨positive, fits_arch⟩ :=
    (halEfuseRejects_eq_false_iff arch startBit bitNum).mp accepted
  have fits : startBit + bitNum ≤ 2048 :=
    Nat.le_trans fits_arch (halEfuseBitNum_le arch)
  have left :
      (bitNum - if bitNum ≤ 32 - startBit % 32 then bitNum
        else 32 - startBit % 32) = bitNum - (32 - startBit % 32) := by
    split <;> omega
  unfold halEfuseWrite
  rw [accepted]
  cases outcome : efuseAcquire dev with
  | mk status acquired =>
      rw [outcome] at granted frame
      dsimp only at granted frame
      subst granted
      rw [frame]
      dsimp only
      rw [left, halEfuseWriteLoop_frame, halEfuseWrite_words _ _ _ _ _ fits
        positive rfl]
      rfl

theorem halEfuseWrite_withSid (arch : ChipArchVer) (startBit bitNum : Nat)
    (data : List Byte) (dev : Device) (sid : BitVec 2048)
    (accepted : halEfuseRejects arch startBit bitNum = false) :
    halEfuseWrite arch startBit bitNum data (dev.withSid sid) =
      (.ok, dev.withSid (program sid dev.stuck startBit bitNum data)) :=
  halEfuseWrite_eq arch startBit bitNum data (dev.withSid sid) accepted rfl

/-- A driver that is busy or has no usable clock programs nothing. -/
theorem halEfuseWrite_refused (arch : ChipArchVer) (startBit bitNum : Nat)
    (data : List Byte) (dev : Device) (refused : dev.available = false) :
    (halEfuseWrite arch startBit bitNum data dev).1 ≠ .ok ∧
      (halEfuseWrite arch startBit bitNum data dev).2 = dev := by
  obtain ⟨denied, unchanged⟩ := efuseAcquire_refused dev refused
  unfold halEfuseWrite
  split
  · exact ⟨by simp, rfl⟩
  · cases outcome : efuseAcquire dev with
    | mk status acquired =>
        rw [outcome] at denied unchanged
        cases status with
        | ok => exact absurd rfl denied
        | error => exact ⟨by simp, unchanged⟩
        | busy => exact ⟨by simp, unchanged⟩

end XR872.Chip.Efuse
