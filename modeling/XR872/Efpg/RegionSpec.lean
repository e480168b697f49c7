/-
Fuse-level meaning of the region reader and writer.

Both functions are described by what the fuses hold: which slot a scan stops at
and what one turn of the writer's slot loop does. Nothing above this module
looks at a driver call again.
-/

import XR872.Efpg.Region

namespace XR872.Efpg

open BitView
open WriteOnce
open Chip.Efuse

def RegionInfo.slots (info : RegionInfo) : Nat :=
  info.flagBits / regionAtomicFlagBits

def RegionInfo.flagAt (info : RegionInfo) (slot : Nat) : Nat :=
  info.flagStart + slot * regionAtomicFlagBits

def RegionInfo.dataAt (info : RegionInfo) (slot : Nat) : Nat :=
  info.dataStart + slot * info.dataBits

/-- What the two functions need of a region: the flag field is whole pairs that
fit one 32-bit variable, the slots follow it and lie inside the array, and no
flag window reaches the end of the words its read loads. -/
structure RegionInfo.Fits (arch : ChipArchVer) (info : RegionInfo) : Prop where
  pairs : info.flagBits = 2 * info.slots
  flagPositive : 0 < info.flagBits
  flagSmall : info.flagBits ≤ 24
  adjacent : info.dataStart = info.flagStart + info.flagBits
  dataWhole : 8 ∣ info.dataBits
  dataPositive : 0 < info.dataBits
  inside :
    info.dataStart + info.slots * info.dataBits ≤ halEfuseBitNum arch
  flagWindow : ∀ slot < info.slots,
    info.flagAt slot + 8 ≤ loadedEnd (info.flagAt slot) regionAtomicFlagBits
  flagField :
    info.flagStart + 8 * ((info.flagBits + 7) / 8) ≤
      loadedEnd info.flagStart info.flagBits

theorem macRegion_fits (arch : ChipArchVer) :
    (macRegion arch).Fits arch := by
  cases arch <;>
    exact
      { pairs := by decide
        flagPositive := by decide
        flagSmall := by decide
        adjacent := by decide
        dataWhole := by decide
        dataPositive := by decide
        inside := by decide
        flagWindow := by decide
        flagField := by decide }

/-! ### Scanning the flag variable -/

/-- Both bits of pair `slot` of the flag variable are clear. -/
def PairClear (flag : BitVec 32) (slot : Nat) : Prop :=
  flag.getLsbD (2 * slot) = false ∧ flag.getLsbD (2 * slot + 1) = false

theorem and_flagMask_eq_zero_iff (flag : BitVec 32) :
    flag &&& regionAtomicFlagMask = 0 ↔ PairClear flag 0 := by
  have maskBit : ∀ j < 32,
      regionAtomicFlagMask.getLsbD j = decide (j < 2) := by decide
  constructor
  · intro zero
    have low := congrArg (fun word => word.getLsbD 0) zero
    have high := congrArg (fun word => word.getLsbD 1) zero
    simp only [BitVec.getLsbD_and, maskBit 0 (by decide),
      maskBit 1 (by decide)] at low high
    exact ⟨by simpa using low, by simpa using high⟩
  · rintro ⟨low, high⟩
    apply BitVec.eq_of_getLsbD_eq
    intro j within
    rw [BitVec.getLsbD_and, maskBit j within]
    match j with
    | 0 => simpa using low
    | 1 => simpa using high
    | _ + 2 => simp

theorem pairClear_shift (flag : BitVec 32) (slot : Nat) :
    PairClear (flag >>> regionAtomicFlagBits) slot ↔
      PairClear flag (slot + 1) := by
  unfold PairClear regionAtomicFlagBits
  rw [BitVec.getLsbD_ushiftRight, BitVec.getLsbD_ushiftRight]
  have low : 2 + 2 * slot = 2 * (slot + 1) := by omega
  have high : 2 + (2 * slot + 1) = 2 * (slot + 1) + 1 := by omega
  rw [low, high]

theorem efpgReadRegionScan_eq (fuel : Nat) (flag : BitVec 32)
    (idx slot : Nat) (enough : slot < fuel)
    (clear : ∀ below < slot, PairClear flag below)
    (used : ¬ PairClear flag slot) :
    efpgReadRegionScan fuel flag idx = idx + slot := by
  induction fuel generalizing flag idx slot with
  | zero => omega
  | succ fuel ih =>
      unfold efpgReadRegionScan
      cases slot with
      | zero =>
          rw [if_neg (fun zero => used ((and_flagMask_eq_zero_iff flag).mp zero))]
          rfl
      | succ slot =>
          have first := clear 0 (Nat.zero_lt_succ slot)
          rw [if_pos ((and_flagMask_eq_zero_iff flag).mpr first)]
          rw [ih (flag >>> regionAtomicFlagBits) (idx + 1) slot (by omega)
            (fun below within =>
              (pairClear_shift flag below).mpr (clear (below + 1) (by omega)))
            (fun shifted => used ((pairClear_shift flag slot).mp shifted))]
          omega

theorem efpgReadRegionScan_ge (fuel : Nat) (flag : BitVec 32)
    (idx slot : Nat) (enough : slot ≤ fuel)
    (clear : ∀ below < slot, PairClear flag below) :
    idx + slot ≤ efpgReadRegionScan fuel flag idx := by
  induction fuel generalizing flag idx slot with
  | zero =>
      have none : slot = 0 := by omega
      subst none
      exact Nat.le_refl _
  | succ fuel ih =>
      unfold efpgReadRegionScan
      cases slot with
      | zero =>
          split
          · have later := ih (flag >>> regionAtomicFlagBits) (idx + 1) 0
              (Nat.zero_le fuel) (by intro below within; omega)
            omega
          · exact Nat.le_refl _
      | succ slot =>
          have first := clear 0 (Nat.zero_lt_succ slot)
          rw [if_pos ((and_flagMask_eq_zero_iff flag).mpr first)]
          have later := ih (flag >>> regionAtomicFlagBits) (idx + 1) slot
            (by omega)
            (fun below within =>
              (pairClear_shift flag below).mpr (clear (below + 1) (by omega)))
          omega

/-- The writer's scan stops at the first used pair below `idxMax`, or there. -/
theorem efpgWriteRegionScan_eq (idxMax fuel : Nat) (flag : BitVec 32)
    (idx slot : Nat) (enough : slot ≤ fuel) (bounded : idx + slot ≤ idxMax)
    (clear : ∀ below < slot, PairClear flag below)
    (stops : idx + slot = idxMax ∨ ¬ PairClear flag slot) :
    efpgWriteRegionScan idxMax fuel flag idx = idx + slot := by
  induction fuel generalizing flag idx slot with
  | zero =>
      have none : slot = 0 := by omega
      subst none
      rfl
  | succ fuel ih =>
      unfold efpgWriteRegionScan
      cases slot with
      | zero =>
          rw [if_neg]
          · rfl
          · rintro ⟨zero, below⟩
            rcases stops with atMax | used
            · omega
            · exact used ((and_flagMask_eq_zero_iff flag).mp zero)
      | succ slot =>
          have first := clear 0 (Nat.zero_lt_succ slot)
          rw [if_pos ⟨(and_flagMask_eq_zero_iff flag).mpr first, by omega⟩]
          rw [ih (flag >>> regionAtomicFlagBits) (idx + 1) slot (by omega)
            (by omega)
            (fun below within =>
              (pairClear_shift flag below).mpr (clear (below + 1) (by omega)))
            (by
              rcases stops with atMax | used
              · exact Or.inl (by omega)
              · exact Or.inr fun shifted =>
                  used ((pairClear_shift flag slot).mp shifted))]
          omega

/-! ### Slots of an array -/

def slotUsed (info : RegionInfo) (sid : BitVec 2048) (slot : Nat) : Bool :=
  sid.getLsbD (info.flagAt slot) || sid.getLsbD (info.flagAt slot + 1)

def firstUsedSlot (info : RegionInfo) (sid : BitVec 2048) : Nat :=
  (List.range info.slots).findIdx (slotUsed info sid)

theorem firstUsedSlot_le (info : RegionInfo) (sid : BitVec 2048) :
    firstUsedSlot info sid ≤ info.slots := by
  have bound : firstUsedSlot info sid ≤ (List.range info.slots).length :=
    List.findIdx_le_length
  rwa [List.length_range] at bound

theorem slotUsed_below_first (info : RegionInfo) (sid : BitVec 2048)
    (slot : Nat) (below : slot < firstUsedSlot info sid) :
    slotUsed info sid slot = false := by
  have clear := List.not_of_lt_findIdx below
  simpa using clear

theorem slotUsed_first (info : RegionInfo) (sid : BitVec 2048)
    (present : firstUsedSlot info sid < info.slots) :
    slotUsed info sid (firstUsedSlot info sid) = true := by
  have inside : (List.range info.slots).findIdx (slotUsed info sid) <
      (List.range info.slots).length := by
    rwa [List.length_range]
  have found : slotUsed info sid
      ((List.range info.slots)[(List.range info.slots).findIdx
        (slotUsed info sid)]) = true := List.findIdx_getElem
  rwa [List.getElem_range] at found

variable {arch : ChipArchVer} {info : RegionInfo}

theorem RegionInfo.Fits.flagInside (fits : info.Fits arch) (slot : Nat)
    (within : slot < info.slots) :
    info.flagAt slot + 2 ≤ info.dataStart := by
  have pairs := fits.pairs
  have adjacent := fits.adjacent
  unfold RegionInfo.flagAt regionAtomicFlagBits
  omega

theorem RegionInfo.dataAt_inside (info : RegionInfo) (slot : Nat)
    (within : slot < info.slots) :
    info.dataAt slot + info.dataBits ≤
      info.dataStart + info.slots * info.dataBits := by
  have covered : (slot + 1) * info.dataBits ≤ info.slots * info.dataBits :=
    Nat.mul_le_mul_right info.dataBits within
  rw [Nat.succ_mul] at covered
  unfold RegionInfo.dataAt
  omega

theorem RegionInfo.Fits.array (fits : info.Fits arch) :
    info.dataStart + info.slots * info.dataBits ≤ 2048 :=
  Nat.le_trans fits.inside (halEfuseBitNum_le arch)

/-- Inside the flag field the flag variable shows the fuses themselves. -/
theorem pairClear_flag_iff (fits : info.Fits arch) (sid : BitVec 2048)
    (slot : Nat) (within : slot < info.slots) :
    PairClear (ofBytes 32 (readBytes sid info.flagStart info.flagBits)) slot ↔
      slotUsed info sid slot = false := by
  have pairs := fits.pairs
  have small := fits.flagSmall
  have adjacent := fits.adjacent
  have array := fits.array
  have bit : ∀ j < info.flagBits,
      (ofBytes 32
          (readBytes sid info.flagStart info.flagBits)).getLsbD j =
        sid.getLsbD (info.flagStart + j) := by
    intro j inField
    have inWord : j < 32 := by omega
    rw [getLsbD_ofBytes,
      bitAt_readBytes_window sid info.flagStart info.flagBits j (by omega)
        inField]
    simp [inWord]
  have low := bit (2 * slot) (by omega)
  have high := bit (2 * slot + 1) (by omega)
  have lowFuse : info.flagStart + 2 * slot = info.flagAt slot := by
    unfold RegionInfo.flagAt regionAtomicFlagBits
    omega
  have highFuse : info.flagStart + (2 * slot + 1) = info.flagAt slot + 1 := by
    unfold RegionInfo.flagAt regionAtomicFlagBits
    omega
  rw [lowFuse] at low
  rw [highFuse] at high
  unfold PairClear slotUsed
  rw [low, high]
  simp

/-! ### The reader -/

theorem halEfuseRejects_flag (fits : info.Fits arch) :
    halEfuseRejects arch info.flagStart info.flagBits = false := by
  rw [halEfuseRejects_eq_false_iff]
  have positive := fits.flagPositive
  have adjacent := fits.adjacent
  have inside := fits.inside
  omega

theorem halEfuseRejects_slotFlag (fits : info.Fits arch) (slot : Nat)
    (within : slot < info.slots) :
    halEfuseRejects arch (info.flagAt slot) regionAtomicFlagBits = false := by
  rw [halEfuseRejects_eq_false_iff]
  have below := fits.flagInside slot within
  have inside := fits.inside
  unfold regionAtomicFlagBits
  omega

theorem halEfuseRejects_slotData (fits : info.Fits arch) (slot : Nat)
    (within : slot < info.slots) :
    halEfuseRejects arch (info.dataAt slot) info.dataBits = false := by
  rw [halEfuseRejects_eq_false_iff]
  have below := info.dataAt_inside slot within
  have positive := fits.dataPositive
  have inside := fits.inside
  omega

theorem efpgReadRegion_first (fits : info.Fits arch) (dev : Device)
    (available : dev.available = true) (slot : Nat)
    (within : slot < info.slots)
    (clear : ∀ below < slot, slotUsed info dev.sid below = false)
    (used : slotUsed info dev.sid slot = true) :
    efpgReadRegion arch info dev =
      { ack := .ok
        data := readBytes dev.sid (info.dataAt slot) info.dataBits
        idx := slot
        dev := dev.withSid dev.sid } := by
  have small := fits.flagSmall
  have pairs := fits.pairs
  let flag := ofBytes 32 (readBytes dev.sid info.flagStart info.flagBits)
  have notClear : ¬ PairClear flag slot := by
    intro pair
    rw [(pairClear_flag_iff fits dev.sid slot within).mp pair] at used
    contradiction
  have nonzero : flag ≠ 0 := by
    intro zero
    apply notClear
    rw [zero]
    exact ⟨by simp, by simp⟩
  have scanned : efpgReadRegionScan 16 flag 0 = slot := by
    rw [efpgReadRegionScan_eq 16 flag 0 slot (by omega)
      (fun below lower =>
        (pairClear_flag_iff fits dev.sid below (by omega)).mpr
          (clear below lower)) notClear]
    omega
  have readData :
      halEfuseRead arch (info.dataStart + slot * info.dataBits) info.dataBits
          (dev.withSid dev.sid) = _ :=
    halEfuseRead_eq arch (info.dataAt slot) info.dataBits
      (dev.withSid dev.sid) (halEfuseRejects_slotData fits slot within) rfl
  unfold efpgReadRegion
  rw [halEfuseRead_eq arch _ _ dev (halEfuseRejects_flag fits) available]
  dsimp only
  rw [if_neg (by simp), if_neg nonzero, scanned, readData]
  rfl

/-- With every slot blank the reader finds nothing, or something that is not a
slot. -/
theorem efpgReadRegion_blank (fits : info.Fits arch) (dev : Device)
    (available : dev.available = true)
    (clear : ∀ slot < info.slots, slotUsed info dev.sid slot = false)
    (succeeded : (efpgReadRegion arch info dev).ack = .ok) :
    info.slots ≤ (efpgReadRegion arch info dev).idx := by
  have small := fits.flagSmall
  have pairs := fits.pairs
  let flag := ofBytes 32 (readBytes dev.sid info.flagStart info.flagBits)
  have scanned : info.slots ≤ efpgReadRegionScan 16 flag 0 := by
    have reached := efpgReadRegionScan_ge 16 flag 0 info.slots (by omega)
      (fun below lower =>
        (pairClear_flag_iff fits dev.sid below lower).mpr (clear below lower))
    omega
  unfold efpgReadRegion at succeeded ⊢
  rw [halEfuseRead_eq arch _ _ dev (halEfuseRejects_flag fits) available]
    at succeeded ⊢
  dsimp only at succeeded ⊢
  rw [if_neg (by simp)] at succeeded ⊢
  split
  · rename_i zero
    rw [if_pos zero] at succeeded
    contradiction
  · split
    · exact scanned
    · exact scanned

/-! ### One turn of the writer's loop -/

/-- The flag byte that the writer reads back for a slot is zero: neither the
slot's own pair nor the six fuses after it show a one. -/
def FlagSilent (info : RegionInfo) (sid : BitVec 2048) (slot : Nat) : Prop :=
  ∀ j < 8, sid.getLsbD (info.flagAt slot + j) = false

instance (info : RegionInfo) (sid : BitVec 2048) (slot : Nat) :
    Decidable (FlagSilent info sid slot) :=
  inferInstanceAs (Decidable (∀ j < 8, _))

def pulseFlag (info : RegionInfo) (sid stuck : BitVec 2048)
    (slot : Nat) : BitVec 2048 :=
  program sid stuck (info.flagAt slot) regionAtomicFlagBits
    [regionAtomicFlagMask.setWidth 8]

def writeSlot (info : RegionInfo) (sid stuck : BitVec 2048)
    (data : List Byte) (slot : Nat) : BitVec 2048 :=
  program sid stuck (info.dataAt slot) info.dataBits data

theorem efpgBitCmp_whole (b1 b2 : List Byte) (n : Nat) (whole : 8 ∣ n)
    (size1 : 8 * b1.length = n) (size2 : 8 * b2.length = n) :
    efpgBitCmp b1 b2 n = true ↔ b1 = b2 := by
  have none : n % 8 = 0 := Nat.mod_eq_zero_of_dvd whole
  have all1 : b1.take (n / 8) = b1 := List.take_of_length_le (by omega)
  have all2 : b2.take (n / 8) = b2 := List.take_of_length_le (by omega)
  unfold efpgBitCmp
  dsimp only
  rw [all1, all2, none]
  simp

theorem efpgWriteRegionLoop_step (fits : info.Fits arch) (dev : Device)
    (sid : BitVec 2048) (data : List Byte)
    (size : 8 * data.length = info.dataBits) (slot : Nat)
    (within : slot < info.slots) (tried : List Nat) :
    efpgWriteRegionLoop arch info data (slot + 1) tried (dev.withSid sid) =
      let pulsed := pulseFlag info sid dev.stuck slot
      let written := writeSlot info pulsed dev.stuck data slot
      if FlagSilent info pulsed slot then
        efpgWriteRegionLoop arch info data slot (slot :: tried)
          (dev.withSid pulsed)
      else if Holds written (info.dataAt slot) info.dataBits data then
        { ack := .ok, tried := slot :: tried, dev := dev.withSid written }
      else
        efpgWriteRegionLoop arch info data slot (slot :: tried)
          (dev.withSid written) := by
  have flagInside := fits.flagInside slot within
  have dataInside := info.dataAt_inside slot within
  have array := fits.array
  have window := fits.flagWindow slot within
  have room : info.flagAt slot + 8 ≤ 2048 := by
    have positive := fits.dataPositive
    have whole := fits.dataWhole
    have eight : 8 ≤ info.dataBits := Nat.le_of_dvd positive whole
    have first : info.dataBits ≤ info.slots * info.dataBits :=
      Nat.le_mul_of_pos_left _ (by omega)
    omega
  have writeFlag :
      halEfuseWrite arch (info.flagStart + slot * regionAtomicFlagBits)
          regionAtomicFlagBits [regionAtomicFlagMask.setWidth 8]
          (dev.withSid sid) =
        (.ok, dev.withSid (pulseFlag info sid dev.stuck slot)) :=
    halEfuseWrite_withSid arch _ _ _ dev sid
      (halEfuseRejects_slotFlag fits slot within)
  have readFlag (cells : BitVec 2048) :
      halEfuseRead arch (info.flagStart + slot * regionAtomicFlagBits)
          regionAtomicFlagBits (dev.withSid cells) =
        { status := .ok
          data := readBytes cells (info.flagAt slot) regionAtomicFlagBits
          dev := dev.withSid cells } :=
    halEfuseRead_withSid arch _ _ dev cells
      (halEfuseRejects_slotFlag fits slot within)
  have writeData (cells : BitVec 2048) :
      halEfuseWrite arch (info.dataStart + slot * info.dataBits)
          info.dataBits data (dev.withSid cells) =
        (.ok, dev.withSid (writeSlot info cells dev.stuck data slot)) :=
    halEfuseWrite_withSid arch _ _ data dev cells
      (halEfuseRejects_slotData fits slot within)
  have readData (cells : BitVec 2048) :
      halEfuseRead arch (info.dataStart + slot * info.dataBits)
          info.dataBits (dev.withSid cells) =
        { status := .ok
          data := readBytes cells (info.dataAt slot) info.dataBits
          dev := dev.withSid cells } :=
    halEfuseRead_withSid arch _ _ dev cells
      (halEfuseRejects_slotData fits slot within)
  have flagByte (cells : BitVec 2048) :
      storeByte (regionAtomicFlagMask.setWidth 8)
          (readBytes cells (info.flagAt slot) regionAtomicFlagBits) = 0 ↔
        FlagSilent info cells slot := by
    rw [readBytes_byte cells _ _ (by decide) (by decide) room window]
    exact byte_eq_zero_iff cells (info.flagAt slot)
  have compare (cells : BitVec 2048) :
      efpgBitCmp data (readBytes cells (info.dataAt slot) info.dataBits)
          info.dataBits = true ↔
        Holds cells (info.dataAt slot) info.dataBits data := by
    have positive := fits.dataPositive
    rw [efpgBitCmp_whole _ _ _ fits.dataWhole size
        (by rw [readBytes_length]; omega),
      ← readBytes_eq_iff_holds cells _ _ data size (by omega)]
    exact eq_comm
  conv_lhs => unfold efpgWriteRegionLoop
  dsimp only
  rw [writeFlag]
  dsimp only
  rw [if_neg (by simp), readFlag]
  dsimp only
  rw [if_neg (by simp)]
  by_cases silent :
      FlagSilent info (pulseFlag info sid dev.stuck slot) slot
  · rw [if_pos silent, if_pos ((flagByte _).mpr silent)]
  · rw [if_neg silent, if_neg (fun zero => silent ((flagByte _).mp zero)),
      writeData]
    dsimp only
    rw [if_neg (by simp), readData]
    dsimp only
    rw [if_neg (by simp)]
    by_cases holds :
        Holds (writeSlot info (pulseFlag info sid dev.stuck slot) dev.stuck
          data slot) (info.dataAt slot) info.dataBits data
    · rw [if_pos holds, if_pos ((compare _).mpr holds)]
    · rw [if_neg holds, if_neg (fun same => holds ((compare _).mp same))]

theorem efpgWriteRegion_eq (fits : info.Fits arch) (dev : Device)
    (available : dev.available = true) (data : List Byte) :
    efpgWriteRegion arch info data dev =
      efpgWriteRegionLoop arch info data (firstUsedSlot info dev.sid) []
        (dev.withSid dev.sid) := by
  have bounded := firstUsedSlot_le info dev.sid
  have scanned :
      efpgWriteRegionScan info.slots info.slots
          (ofBytes 32 (readBytes dev.sid info.flagStart info.flagBits)) 0 =
        firstUsedSlot info dev.sid := by
    rw [efpgWriteRegionScan_eq info.slots info.slots _ 0
      (firstUsedSlot info dev.sid) bounded (by omega)]
    · omega
    · intro below lower
      exact (pairClear_flag_iff fits dev.sid below (by omega)).mpr
        (slotUsed_below_first info dev.sid below lower)
    · rcases Nat.lt_or_ge (firstUsedSlot info dev.sid) info.slots with
        present | absent
      · refine Or.inr fun clear => ?_
        have blank := (pairClear_flag_iff fits dev.sid _ present).mp clear
        rw [slotUsed_first info dev.sid present] at blank
        contradiction
      · exact Or.inl (by omega)
  unfold efpgWriteRegion
  rw [halEfuseRead_eq arch _ _ dev (halEfuseRejects_flag fits) available]
  dsimp only
  rw [if_neg (by simp)]
  change efpgWriteRegionLoop arch info data
    (efpgWriteRegionScan info.slots info.slots _ 0) [] _ = _
  rw [scanned]

theorem efpgWriteRegion_refused (dev : Device) (data : List Byte)
    (refused : dev.available = false) :
    efpgWriteRegion arch info data dev =
      { ack := .rwErr, tried := [], dev := dev } := by
  obtain ⟨denied, unchanged⟩ :=
    halEfuseRead_refused arch info.flagStart info.flagBits dev refused
  unfold efpgWriteRegion
  dsimp only
  rw [if_pos denied, unchanged]

end XR872.Efpg
