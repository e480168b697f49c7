/-
What `HAL_EFUSE_Read` stores.

The funnel shift moves the requested window to bit zero and leaves everything
above it in place, so the last byte carries whatever fuses follow the window
inside the last word loaded. The read is exact precisely when those are blank.
-/

import XR872.Chip.Efuse
import XR872.Library.WriteOnce

namespace XR872.Chip.Efuse

open XR872.BitView
open XR872.WriteOnce

/-! ### Addressing -/

theorem efuseSetIndex_eq (index : Nat) :
    efuseSetIndex index = 4 * (index % 64) := by
  unfold efuseSetIndex
  rw [Nat.shiftLeft_eq]
  omega

/-- A word read continues the numbering of the words before it, modulo the 64
words the controller can address. -/
theorem getLsbD_efuseReadData (sid : BitVec 2048) (index bit : Nat)
    (within : bit < 32) :
    (efuseReadData sid index).getLsbD bit =
      sid.getLsbD ((32 * index + bit) % 2048) := by
  have address :
      8 * efuseSetIndex index + bit = (32 * index + bit) % 2048 := by
    rw [efuseSetIndex_eq]
    omega
  rw [efuseReadData, BitVec.getLsbD_extractLsb', address]
  simp [within]

/-! ### Admission -/

/-- The driver accepts a call in this state. -/
def Device.available (dev : Device) : Bool :=
  decide ((efuseAcquire dev).1 = .ok)

theorem halEfuseRejects_eq_false_iff (arch : ChipArchVer)
    (startBit bitNum : Nat) :
    halEfuseRejects arch startBit bitNum = false ↔
      0 < bitNum ∧ startBit + bitNum ≤ halEfuseBitNum arch := by
  simp only [halEfuseRejects, Bool.or_eq_false_iff, decide_eq_false_iff_not]
  omega

theorem halEfuseBitNum_le (arch : ChipArchVer) :
    halEfuseBitNum arch ≤ 2048 := by
  cases arch <;> decide

/-- Acquiring the driver changes nothing but `gEfuseState`. -/
theorem efuseAcquire_frame (dev : Device) :
    (efuseAcquire dev).2 = { dev with state := (efuseAcquire dev).2.state } := by
  unfold efuseAcquire
  cases dev with
  | mk state hfClock sid stuck =>
      cases state with
      | invalid => dsimp only; split <;> rfl
      | ready => rfl
      | busy => rfl

def Device.withSid (dev : Device) (sid : BitVec 2048) : Device :=
  { dev with state := .ready, sid := sid }

@[simp] theorem Device.withSid_sid (dev : Device) (sid : BitVec 2048) :
    (dev.withSid sid).sid = sid := rfl

/-! ### The stored bytes -/

/-- The bytes `HAL_EFUSE_Read` copies out of its word buffer. -/
def readBytes (sid : BitVec 2048) (startBit bitNum : Nat) : List Byte :=
  ((funnel (startBit % 32)
      ((List.range ((startBit + bitNum) / 32 - startBit / 32 + 1)).map fun i =>
        efuseReadData sid (startBit / 32 + i))).flatMap toBytes).take
    ((bitNum + 7) / 8)

def loadedEnd (startBit bitNum : Nat) : Nat :=
  32 * ((startBit + bitNum) / 32 + 1)

theorem halEfuseRead_eq (arch : ChipArchVer) (startBit bitNum : Nat)
    (dev : Device) (accepted : halEfuseRejects arch startBit bitNum = false)
    (available : dev.available = true) :
    halEfuseRead arch startBit bitNum dev =
      { status := .ok
        data := readBytes dev.sid startBit bitNum
        dev := dev.withSid dev.sid } := by
  have granted : (efuseAcquire dev).1 = .ok := of_decide_eq_true available
  have frame := efuseAcquire_frame dev
  unfold halEfuseRead
  rw [accepted]
  cases outcome : efuseAcquire dev with
  | mk status acquired =>
      rw [outcome] at granted frame
      dsimp only at granted frame
      subst granted
      rw [frame]
      rfl

theorem halEfuseRead_withSid (arch : ChipArchVer) (startBit bitNum : Nat)
    (dev : Device) (sid : BitVec 2048)
    (accepted : halEfuseRejects arch startBit bitNum = false) :
    halEfuseRead arch startBit bitNum (dev.withSid sid) =
      { status := .ok
        data := readBytes sid startBit bitNum
        dev := dev.withSid sid } :=
  halEfuseRead_eq arch startBit bitNum (dev.withSid sid) accepted rfl

theorem halEfuseRead_ok_iff (arch : ChipArchVer) (startBit bitNum : Nat)
    (dev : Device) :
    (halEfuseRead arch startBit bitNum dev).status = .ok ↔
      halEfuseRejects arch startBit bitNum = false ∧ dev.available = true := by
  constructor
  · intro succeeded
    unfold halEfuseRead at succeeded
    cases rejected : halEfuseRejects arch startBit bitNum with
    | true => simp [rejected] at succeeded
    | false =>
        refine ⟨rfl, decide_eq_true ?_⟩
        cases outcome : efuseAcquire dev with
        | mk status acquired =>
            cases status with
            | ok => rfl
            | error => simp [rejected, outcome] at succeeded
            | busy => simp [rejected, outcome] at succeeded
  · rintro ⟨accepted, available⟩
    rw [halEfuseRead_eq arch startBit bitNum dev accepted available]

theorem efuseAcquire_refused (dev : Device) (refused : dev.available = false) :
    (efuseAcquire dev).1 ≠ .ok ∧ (efuseAcquire dev).2 = dev := by
  refine ⟨of_decide_eq_false refused, ?_⟩
  cases dev with
  | mk state hfClock sid stuck =>
      cases state with
      | invalid =>
          unfold Device.available at refused
          simp only [efuseAcquire] at refused ⊢
          split at refused
          · simp at refused
          · rename_i unsupported
            rw [if_neg unsupported]
      | ready => simp [Device.available, efuseAcquire] at refused
      | busy => rfl

/-- A driver that is busy or has no usable clock reads nothing and stays as it
was. -/
theorem halEfuseRead_refused (arch : ChipArchVer) (startBit bitNum : Nat)
    (dev : Device) (refused : dev.available = false) :
    (halEfuseRead arch startBit bitNum dev).status ≠ .ok ∧
      (halEfuseRead arch startBit bitNum dev).dev = dev := by
  obtain ⟨denied, unchanged⟩ := efuseAcquire_refused dev refused
  unfold halEfuseRead
  split
  · exact ⟨by simp, rfl⟩
  · cases outcome : efuseAcquire dev with
    | mk status acquired =>
        rw [outcome] at denied unchanged
        cases status with
        | ok => exact absurd rfl denied
        | error => exact ⟨by simp, unchanged⟩
        | busy => exact ⟨by simp, unchanged⟩

theorem readBytes_length (sid : BitVec 2048) (startBit bitNum : Nat) :
    (readBytes sid startBit bitNum).length = (bitNum + 7) / 8 := by
  rw [readBytes, List.length_take, flatMap_toBytes_length, funnel_length,
    List.length_map, List.length_range]
  omega

/-- Every stored bit is the fuse at its offset from the window's start, as far
as words were loaded, and zero past them. -/
theorem bitAt_readBytes (sid : BitVec 2048) (startBit bitNum j : Nat) :
    bitAt (readBytes sid startBit bitNum) j =
      (decide (j < 8 * ((bitNum + 7) / 8)) &&
        (decide (startBit + j < loadedEnd startBit bitNum) &&
          sid.getLsbD ((startBit + j) % 2048))) := by
  have shift : startBit % 32 < 32 := Nat.mod_lt _ (by decide)
  have bit : (j + startBit % 32) % 32 < 32 := Nat.mod_lt _ (by decide)
  have fuse :
      32 * (startBit / 32 + (j + startBit % 32) / 32) +
        (j + startBit % 32) % 32 = startBit + j := by omega
  have loaded :
      j + startBit % 32 <
          32 * ((startBit + bitNum) / 32 - startBit / 32 + 1) ↔
        startBit + j < loadedEnd startBit bitNum := by
    unfold loadedEnd
    omega
  rw [readBytes, bitAt_take (by decide),
    bitAt_flatMap_toBytes (by decide) (by decide), bitAt_funnel _ shift,
    bitAt_map_range (by decide), getLsbD_efuseReadData _ _ _ bit, fuse]
  simp only [loaded]

/-- Inside its window a read is exact whatever the fuses around it hold. -/
theorem bitAt_readBytes_window (sid : BitVec 2048) (startBit bitNum j : Nat)
    (fits : startBit + bitNum ≤ 2048) (within : j < bitNum) :
    bitAt (readBytes sid startBit bitNum) j = sid.getLsbD (startBit + j) := by
  have stored : j < 8 * ((bitNum + 7) / 8) := by omega
  have loaded : startBit + j < loadedEnd startBit bitNum := by
    unfold loadedEnd
    omega
  have address : (startBit + j) % 2048 = startBit + j := by omega
  rw [bitAt_readBytes, address]
  simp [stored, loaded]

theorem readBytes_eq_iff_holds (sid : BitVec 2048) (startBit bitNum : Nat)
    (data : List Byte) (whole : 8 * data.length = bitNum)
    (fits : startBit + bitNum ≤ 2048) :
    readBytes sid startBit bitNum = data ↔
      Holds sid startBit bitNum data := by
  have size : (readBytes sid startBit bitNum).length = data.length := by
    rw [readBytes_length]
    omega
  constructor
  · intro same j within
    rw [← bitAt_readBytes_window sid startBit bitNum j fits within, same]
  · intro holds
    apply ext_of_bitAt _ _ size
    intro j within
    rw [size, whole] at within
    rw [bitAt_readBytes_window sid startBit bitNum j fits within]
    exact holds j within

/-- A read of up to eight bits into one byte tests all eight fuses from the
window's start on, not only the window. -/
theorem readBytes_byte (sid : BitVec 2048) (startBit bitNum : Nat)
    (positive : 0 < bitNum) (small : bitNum ≤ 8)
    (fits : startBit + 8 ≤ 2048)
    (loaded : startBit + 8 ≤ loadedEnd startBit bitNum) :
    readBytes sid startBit bitNum = [sid.extractLsb' startBit 8] := by
  have size : (bitNum + 7) / 8 = 1 := by omega
  apply ext_of_bitAt
  · rw [readBytes_length, size]
    rfl
  · intro j stored
    rw [readBytes_length, size] at stored
    have first : j < 8 := by omega
    have inLoaded : startBit + j < loadedEnd startBit bitNum := by omega
    have address : (startBit + j) % 2048 = startBit + j := by omega
    rw [bitAt_readBytes, bitAt_cons_lt _ _ _ first, address,
      BitVec.getLsbD_extractLsb', size]
    simp [first, inLoaded]

theorem byte_eq_zero_iff (sid : BitVec 2048) (startBit : Nat) :
    sid.extractLsb' startBit 8 = 0 ↔
      ∀ j < 8, sid.getLsbD (startBit + j) = false := by
  constructor
  · intro zero j within
    have bit := congrArg (fun byte => byte.getLsbD j) zero
    simpa [BitVec.getLsbD_extractLsb', within] using bit
  · intro clear
    apply BitVec.eq_of_getLsbD_eq
    intro j within
    rw [BitVec.getLsbD_extractLsb', clear j within]
    simp

/-! ### Exactness -/

/-- The window `[startBit, startBit + bitNum)` packed least significant bit
first, with the rest of the last byte clear. -/
def ReadsExactly (sid : BitVec 2048) (startBit bitNum : Nat)
    (data : List Byte) : Prop :=
  data.length = (bitNum + 7) / 8 ∧
    ∀ j < 8 * data.length,
      bitAt data j = (decide (j < bitNum) && sid.getLsbD (startBit + j))

/-- The fuses between the end of the window and the end of its last byte are
blank, as far as they lie in a word that the read loads. -/
def TrailingFusesBlank (sid : BitVec 2048) (startBit bitNum : Nat) : Prop :=
  ∀ fuse, startBit + bitNum ≤ fuse →
    fuse < startBit + 8 * ((bitNum + 7) / 8) →
      fuse < loadedEnd startBit bitNum → sid.getLsbD (fuse % 2048) = false

instance (sid : BitVec 2048) (startBit bitNum : Nat) :
    Decidable (TrailingFusesBlank sid startBit bitNum) :=
  decidable_of_iff
    (∀ fuse, fuse < startBit + 8 * ((bitNum + 7) / 8) →
      startBit + bitNum ≤ fuse →
        fuse < loadedEnd startBit bitNum → sid.getLsbD (fuse % 2048) = false)
    ⟨fun blank fuse past within => blank fuse within past,
      fun blank fuse within past => blank fuse past within⟩

theorem readsExactly_iff_trailingFusesBlank (sid : BitVec 2048)
    (startBit bitNum : Nat) (fits : startBit + bitNum ≤ 2048) :
    ReadsExactly sid startBit bitNum (readBytes sid startBit bitNum) ↔
      TrailingFusesBlank sid startBit bitNum := by
  constructor
  · rintro ⟨_, exact_bits⟩ fuse past within loaded
    have offset : startBit + (fuse - startBit) = fuse := by omega
    have stored : fuse - startBit < 8 * ((bitNum + 7) / 8) := by omega
    have outside : ¬ fuse - startBit < bitNum := by omega
    have value := exact_bits (fuse - startBit)
      (by rw [readBytes_length]; exact stored)
    rw [bitAt_readBytes, offset] at value
    simpa [stored, loaded, outside] using value
  · intro blank
    refine ⟨readBytes_length sid startBit bitNum, ?_⟩
    intro j stored
    rw [readBytes_length] at stored
    by_cases within : j < bitNum
    · rw [bitAt_readBytes_window sid startBit bitNum j fits within]
      simp [within]
    · rw [bitAt_readBytes]
      by_cases loaded : startBit + j < loadedEnd startBit bitNum
      · have clear :=
          blank (startBit + j) (by omega) (by omega) loaded
        simp [clear, within]
      · simp [loaded, within]

/-- Every read the driver admits stores its window exactly if and only if the
fuses that share the window's last byte are blank. -/
theorem halEfuseRead_exact_iff (arch : ChipArchVer) (startBit bitNum : Nat)
    (dev : Device)
    (admitted : (halEfuseRead arch startBit bitNum dev).status = .ok) :
    ReadsExactly dev.sid startBit bitNum
        (halEfuseRead arch startBit bitNum dev).data ↔
      TrailingFusesBlank dev.sid startBit bitNum := by
  obtain ⟨accepted, available⟩ :=
    (halEfuseRead_ok_iff arch startBit bitNum dev).mp admitted
  have fits : startBit + bitNum ≤ 2048 :=
    Nat.le_trans
      ((halEfuseRejects_eq_false_iff arch startBit bitNum).mp accepted).2
      (halEfuseBitNum_le arch)
  rw [halEfuseRead_eq arch startBit bitNum dev accepted available]
  exact readsExactly_iff_trailingFusesBlank dev.sid startBit bitNum fits

/-- A running controller over an array with the one fuse 528 burned: the first
data fuse of MAC slot 0, two fuses past the end of the MAC flag field. -/
def neighbourBurned : Device :=
  { state := .ready
    hfClock := hoscClock24M
    sid := BitVec.twoPow 2048 528
    stuck := 0 }

/-- Reading the six blank MAC flag fuses returns `0x40`. -/
theorem halEfuseRead_neighbour_leaks :
    halEfuseRead .two 522 6 neighbourBurned =
        { status := .ok, data := [0x40#8], dev := neighbourBurned } ∧
      ¬ ReadsExactly neighbourBurned.sid 522 6 [0x40#8] := by
  refine ⟨by decide +kernel, ?_⟩
  rintro ⟨_, bits⟩
  have leaked := bits 6 (by decide)
  simp [bitAt] at leaked

/-- The flag read of the same array with fuse 528 blank is exact. -/
theorem halEfuseRead_exact_iff_blank :
    ReadsExactly { neighbourBurned with sid := 0 }.sid 522 6
        (halEfuseRead .two 522 6 { neighbourBurned with sid := 0 }).data ↔
      TrailingFusesBlank { neighbourBurned with sid := 0 }.sid 522 6 :=
  halEfuseRead_exact_iff .two 522 6 { neighbourBurned with sid := 0 } (by decide +kernel)

end XR872.Chip.Efuse
