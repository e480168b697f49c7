/-
The `EFUSE_WriteData` calls of `HAL_EFUSE_Write`.

A fuse that takes its program is set for good, so what matters is which words
are programmed and with what, not only what the array reads as afterwards. The
calls are listed in order by the loop that makes them; replaying the list is
the write, and none of its word indices lies past the array.
-/

import XR872.Chip.EfuseWrite

namespace XR872.Chip.Efuse

open XR872.BitView
open XR872.WriteOnce

/-! ### The calls -/

/-- The arguments of one `EFUSE_WriteData`. -/
structure WordProgram where
  index : Nat
  data : BitVec 32
deriving DecidableEq, Repr

def burn (dev : Device) (call : WordProgram) : Device :=
  efuseWriteData dev call.index call.data

def loopPrograms (bitShift : Nat) :
    Nat → Nat → Nat → List Byte → List WordProgram
  | 0, _, _, _ => []
  | fuel + 1, bitCnt, wordIdx, data =>
      if bitCnt = 0 then []
      else
        let buf := ofBytes 64 data <<< bitShift
        { index := wordIdx
          data := efuseMask bitCnt (buf.extractLsb' 32 32) } ::
          loopPrograms bitShift fuel
            (bitCnt - if bitCnt ≤ 32 then bitCnt else 32) (wordIdx + 1)
            (data.drop 4)

/-- All calls of one `HAL_EFUSE_Write` that was let through. -/
def writePrograms (startBit bitNum : Nat) (data : List Byte) :
    List WordProgram :=
  let bitShift := startBit % 32
  let wordIdx := startBit / 32
  let bitCnt :=
    bitNum - if bitNum ≤ 32 - bitShift then bitNum else 32 - bitShift
  { index := wordIdx
    data := efuseMask bitNum (ofBytes 32 data) <<< bitShift } ::
    loopPrograms bitShift bitCnt bitCnt (wordIdx + 1) data

/-! ### Replay -/

theorem halEfuseWriteLoop_eq_replay (bitShift fuel bitCnt wordIdx : Nat)
    (data : List Byte) (dev : Device) :
    halEfuseWriteLoop bitShift fuel bitCnt wordIdx data dev =
      (loopPrograms bitShift fuel bitCnt wordIdx data).foldl burn dev := by
  induction fuel generalizing bitCnt wordIdx data dev with
  | zero => rfl
  | succ fuel ih =>
      unfold halEfuseWriteLoop loopPrograms
      by_cases done : bitCnt = 0
      · rw [if_pos done, if_pos done]
        rfl
      · rw [if_neg done, if_neg done, List.foldl_cons]
        exact ih _ _ _ _

/-- The write is its calls, one after the other, between taking the driver and
giving it back. -/
theorem halEfuseWrite_eq_replay (arch : ChipArchVer) (startBit bitNum : Nat)
    (data : List Byte) (dev : Device)
    (accepted : halEfuseRejects arch startBit bitNum = false)
    (available : dev.available = true) :
    halEfuseWrite arch startBit bitNum data dev =
      (.ok, { (writePrograms startBit bitNum data).foldl burn
                (efuseAcquire dev).2 with
              state := .ready }) := by
  have granted : (efuseAcquire dev).1 = .ok := of_decide_eq_true available
  unfold halEfuseWrite writePrograms
  rw [accepted]
  cases outcome : efuseAcquire dev with
  | mk status acquired =>
      rw [outcome] at granted
      dsimp only at granted
      subst granted
      dsimp only
      rw [halEfuseWriteLoop_eq_replay, List.foldl_cons]
      rfl

/-! ### Where the calls go -/

theorem loopPrograms_index (bitShift fuel bitCnt wordIdx : Nat)
    (data : List Byte) :
    ∀ call ∈ loopPrograms bitShift fuel bitCnt wordIdx data,
      32 * call.index < 32 * wordIdx + bitCnt := by
  induction fuel generalizing bitCnt wordIdx data with
  | zero =>
      intro call listed
      simp [loopPrograms] at listed
  | succ fuel ih =>
      intro call listed
      unfold loopPrograms at listed
      by_cases done : bitCnt = 0
      · simp [done] at listed
      · rw [if_neg done] at listed
        rcases List.mem_cons.mp listed with first | later
        · rw [first]
          dsimp only
          omega
        · have left := ih _ _ _ call later
          split at left
          · omega
          · omega

theorem writePrograms_index (startBit bitNum : Nat) (data : List Byte)
    (positive : 0 < bitNum) :
    ∀ call ∈ writePrograms startBit bitNum data,
      32 * call.index < startBit + bitNum := by
  intro call listed
  rcases List.mem_cons.mp listed with first | later
  · rw [first]
    dsimp only
    omega
  · have left := loopPrograms_index _ _ _ _ _ call later
    split at left
    · omega
    · omega

theorem halEfuseBitNum_words (arch : ChipArchVer) :
    32 * (halEfuseBitNum arch / 32) = halEfuseBitNum arch := by
  cases arch <;> rfl

/-! ### What the calls carry -/

/-- The words of the loop are made of the bits of `data` that it still has to
place, wherever its eight-byte load reaches. -/
theorem loopPrograms_congr (bitShift fuel bitCnt wordIdx : Nat)
    (small : bitShift < 32) (data memory : List Byte)
    (same : ∀ j < bitCnt,
      bitAt memory (32 - bitShift + j) = bitAt data (32 - bitShift + j)) :
    loopPrograms bitShift fuel bitCnt wordIdx memory =
      loopPrograms bitShift fuel bitCnt wordIdx data := by
  induction fuel generalizing bitCnt wordIdx data memory with
  | zero => rfl
  | succ fuel ih =>
      unfold loopPrograms
      by_cases done : bitCnt = 0
      · rw [if_pos done, if_pos done]
      · have word :
            efuseMask bitCnt
                ((ofBytes 64 memory <<< bitShift).extractLsb' 32 32) =
              efuseMask bitCnt
                ((ofBytes 64 data <<< bitShift).extractLsb' 32 32) := by
          apply BitVec.eq_of_getLsbD_eq
          intro j within
          rw [getLsbD_loopWord _ _ small _ _ within,
            getLsbD_loopWord _ _ small _ _ within]
          by_cases placed : j < bitCnt
          · rw [same j placed]
          · simp [placed]
        have rest : ∀ j < bitCnt - if bitCnt ≤ 32 then bitCnt else 32,
            bitAt (memory.drop 4) (32 - bitShift + j) =
              bitAt (data.drop 4) (32 - bitShift + j) := by
          intro j placed
          have later : 32 + j < bitCnt := by
            split at placed
            · omega
            · omega
          have source :
              8 * 4 + (32 - bitShift + j) = 32 - bitShift + (32 + j) := by
            omega
          rw [bitAt_drop (by decide), bitAt_drop (by decide), source]
          exact same (32 + j) later
        rw [if_neg done, if_neg done]
        dsimp only
        rw [word, ih _ _ _ _ rest]

theorem writePrograms_congr (startBit bitNum : Nat) (data memory : List Byte)
    (same : ∀ j < bitNum, bitAt memory j = bitAt data j) :
    writePrograms startBit bitNum memory =
      writePrograms startBit bitNum data := by
  have small : startBit % 32 < 32 := Nat.mod_lt _ (by decide)
  have word :
      efuseMask bitNum (ofBytes 32 memory) =
        efuseMask bitNum (ofBytes 32 data) := by
    apply BitVec.eq_of_getLsbD_eq
    intro j within
    rw [getLsbD_efuseMask, getLsbD_efuseMask, getLsbD_ofBytes,
      getLsbD_ofBytes]
    by_cases placed : j < bitNum
    · rw [same j placed]
    · simp [placed]
  have rest : ∀ j < bitNum - (if bitNum ≤ 32 - startBit % 32 then bitNum
        else 32 - startBit % 32),
      bitAt memory (32 - startBit % 32 + j) =
        bitAt data (32 - startBit % 32 + j) := by
    intro j placed
    apply same
    split at placed
    · omega
    · omega
  unfold writePrograms
  dsimp only
  rw [word, loopPrograms_congr _ _ _ _ small data memory rest]

/-- Buffers that agree on the bytes of the data agree on its bits. -/
theorem bitAt_eq_of_take_eq (bitNum : Nat) (data memory : List Byte)
    (same : memory.take ((bitNum + 7) / 8) = data.take ((bitNum + 7) / 8)) :
    ∀ j < bitNum, bitAt memory j = bitAt data j := by
  intro j within
  have covered : j < 8 * ((bitNum + 7) / 8) := by omega
  have bit := congrArg (fun bytes => bitAt bytes j) same
  simpa [bitAt_take (w := 8) (by decide), covered] using bit

/-! ### Exactness -/

/-- `HAL_EFUSE_Write` on fuses that all take their program: the window gains
the bits of `data`, nothing else changes, no word past the array is programmed,
and what lies in memory behind the data has no part in it. -/
theorem halEfuseWrite_exact (arch : ChipArchVer) (startBit bitNum : Nat)
    (data : List Byte) (dev : Device) (noneStuck : dev.stuck = 0)
    (accepted : halEfuseRejects arch startBit bitNum = false)
    (available : dev.available = true) :
    (halEfuseWrite arch startBit bitNum data dev).1 = .ok ∧
      (∀ k < bitNum,
        (halEfuseWrite arch startBit bitNum data dev).2.sid.getLsbD
            (startBit + k) =
          (dev.sid.getLsbD (startBit + k) || bitAt data k)) ∧
      (∀ fuse, fuse < startBit ∨ startBit + bitNum ≤ fuse →
        (halEfuseWrite arch startBit bitNum data dev).2.sid.getLsbD fuse =
          dev.sid.getLsbD fuse) ∧
      halEfuseWrite arch startBit bitNum data dev =
        (.ok, { (writePrograms startBit bitNum data).foldl burn
                  (efuseAcquire dev).2 with
                state := .ready }) ∧
      (∀ call ∈ writePrograms startBit bitNum data,
        call.index < halEfuseBitNum arch / 32) ∧
      ∀ memory : List Byte,
        memory.take ((bitNum + 7) / 8) = data.take ((bitNum + 7) / 8) →
          halEfuseWrite arch startBit bitNum memory dev =
              halEfuseWrite arch startBit bitNum data dev ∧
            writePrograms startBit bitNum memory =
              writePrograms startBit bitNum data := by
  have fits : startBit + bitNum ≤ 2048 :=
    Nat.le_trans
      ((halEfuseRejects_eq_false_iff arch startBit bitNum).mp accepted).2
      (halEfuseBitNum_le arch)
  obtain ⟨positive, fits_arch⟩ :=
    (halEfuseRejects_eq_false_iff arch startBit bitNum).mp accepted
  have written := halEfuseWrite_eq arch startBit bitNum data dev accepted
    available
  refine ⟨?_, ?_, ?_,
    halEfuseWrite_eq_replay arch startBit bitNum data dev accepted available,
    ?_, ?_⟩
  · rw [written]
  · intro k within
    rw [written, Device.withSid_sid, program_window _ _ _ _ _ _ within fits,
      noneStuck]
    simp
  · intro fuse outside
    rw [written, Device.withSid_sid]
    exact program_outside _ _ _ _ _ _ outside
  · intro call listed
    have inside := writePrograms_index startBit bitNum data positive call listed
    have whole := halEfuseBitNum_words arch
    omega
  · intro memory same
    have calls := writePrograms_congr startBit bitNum data memory
      (bitAt_eq_of_take_eq bitNum data memory same)
    refine ⟨?_, calls⟩
    rw [halEfuseWrite_eq_replay arch startBit bitNum memory dev accepted
        available,
      halEfuseWrite_eq_replay arch startBit bitNum data dev accepted available,
      calls]

/-- A driver that nobody has used yet, over a blank array. -/
def blankDevice : Device :=
  { state := .invalid
    hfClock := hoscClock26M
    sid := 0
    stuck := 0 }

/-- Nine bits across the seam between words 3 and 4 of a blank array. -/
theorem halEfuseWrite_exact_seam :
    bitAt [0xA5#8, 0xFF#8] 8 = true ∧
      (halEfuseWrite .two 123 9 [0xA5#8, 0xFF#8] blankDevice).2.sid.getLsbD
          (123 + 8) = (blankDevice.sid.getLsbD (123 + 8) || true) := by
  have exact_write := halEfuseWrite_exact .two 123 9 [0xA5#8, 0xFF#8]
    blankDevice rfl (by decide) (by decide)
  have seam : bitAt [0xA5#8, 0xFF#8] 8 = true := by decide
  refine ⟨seam, ?_⟩
  rw [← seam]
  exact exact_write.2.1 8 (by decide)

end XR872.Chip.Efuse
