/-
Reading and writing a field of the fuse map, from `efpg/efpg_efuse.c`.
-/

import XR872.Efpg.BootHash

namespace XR872.Efpg

open BitView
open Chip.Efuse
open Fallible

/-! ### Reading -/

structure FieldRead where
  ack : EfpgAck
  /-- The bytes stored at `data`. -/
  stored : List Byte
  dev : Device
deriving DecidableEq, Repr

def readWhole (arch : ChipArchVer) (startBit bitNum : Nat)
    (dev : Device) : FieldRead :=
  let r := halEfuseRead arch startBit bitNum dev
  { ack := if r.status = .ok then .ok else .rwErr
    stored := r.data
    dev := r.dev }

def efpgReadHosc (arch : ChipArchVer) (dev : Device) : FieldRead :=
  readWhole arch (fuseMap arch).hoscTypeStart (fuseMap arch).hoscTypeNum dev

def efpgReadChipid (arch : ChipArchVer) (dev : Device) : FieldRead :=
  readWhole arch (fuseMap arch).chipid1stStart (fuseMap arch).chipid1stNum dev

/-- The bounds check of both user area functions. -/
def userAreaRejects (arch : ChipArchVer) (start num : Nat) : Bool :=
  let m := fuseMap arch
  decide (m.userAreaNum ≤ start) || decide (num = 0) ||
    decide (m.userAreaNum < num) || decide (m.userAreaNum < start + num)

def efpgReadUserArea (arch : ChipArchVer) (start num : Nat)
    (dev : Device) : FieldRead :=
  if userAreaRejects arch start num then
    { ack := .rwErr, stored := [], dev := dev }
  else readWhole arch (start + (fuseMap arch).userAreaStart) num dev

/-- What `efpg_read_boot` has stored at `data` when it gives up: the hash, once
the flag was found and the hash read. -/
def bootStored (arch : ChipArchVer) : EfuseM (List Byte) := do
  let m := fuseMap arch
  let bytes ← readField arch m.bootFlagStart m.bootFlagNum
  if storeByte 0 bytes = 0 then throw .nodataErr
  else readField arch m.bootHashStart m.bootHashNum

/-- `efpg_read_boot` as a field read. -/
def efpgReadBootField (arch : ChipArchVer) (dev : Device) : FieldRead :=
  match efpgReadBoot arch dev with
  | (.ok read, after) => { ack := .ok, stored := read.data, dev := after }
  | (.error ack, after) =>
      { ack := ack
        stored :=
          match (bootStored arch dev).1 with
          | .ok data => data
          | .error _ => []
        dev := after }

def efpgReadField (arch : ChipArchVer) (field : EfpgField)
    (startBitAddr bitLen : Nat) (dev : Device) : FieldRead :=
  match field with
  | .hosc => efpgReadHosc arch dev
  | .boot => efpgReadBootField arch dev
  | .mac =>
      let r := efpgReadMac arch dev
      { ack := r.ack, stored := r.data, dev := r.dev }
  | .chipid => efpgReadChipid arch dev
  | .ua => efpgReadUserArea arch startBitAddr bitLen dev
  | .num => { ack := .rwErr, stored := [], dev := dev }

/-! ### Writing -/

/-- A field that is one driver write, read back and compared. -/
def writeWhole (arch : ChipArchVer) (startBit bitNum bufLen : Nat)
    (data : List Byte) (dev : Device) : EfpgAck × Device :=
  match halEfuseWrite arch startBit bitNum data dev with
  | (.ok, dev) =>
      let r := halEfuseRead arch startBit bitNum dev
      if r.status ≠ .ok then (.rwErr, r.dev)
      else if data.take bufLen = r.data then (.ok, r.dev)
      else (.diErr, r.dev)
  | (_, dev) => (.rwErr, dev)

def efpgWriteHosc (arch : ChipArchVer) (data : List Byte)
    (dev : Device) : EfpgAck × Device :=
  writeWhole arch (fuseMap arch).hoscTypeStart (fuseMap arch).hoscTypeNum
    efpgHoscBufLen data dev

def efpgWriteChipid (arch : ChipArchVer) (data : List Byte)
    (dev : Device) : EfpgAck × Device :=
  writeWhole arch (fuseMap arch).chipid1stStart (fuseMap arch).chipid1stNum
    efpgChipidBufLen data dev

def efpgWriteUserArea (arch : ChipArchVer) (start num : Nat)
    (data : List Byte) (dev : Device) : EfpgAck × Device :=
  if userAreaRejects arch start num then (.rwErr, dev)
  else
    match halEfuseWrite arch (start + (fuseMap arch).userAreaStart) num data
        dev with
    | (.ok, dev) => (.ok, dev)
    | (_, dev) => (.rwErr, dev)

/-- `efpg_write_field`. `data` is the buffer from the pointer on; the boot hash
and the address take their own length of it. -/
def efpgWriteField (arch : ChipArchVer) (field : EfpgField) (data : List Byte)
    (startBitAddr bitLen : Nat) (dev : Device) : EfpgAck × Device :=
  match field with
  | .hosc => efpgWriteHosc arch data dev
  | .boot =>
      match efpgWriteBoot arch (data.take efpgBootBufLen) dev with
      | (.ok _, dev) => (.ok, dev)
      | (.error ack, dev) => (ack, dev)
  | .mac =>
      let w := efpgWriteMac arch (data.take 6) dev
      (w.ack, w.dev)
  | .chipid => efpgWriteChipid arch data dev
  | .ua => efpgWriteUserArea arch startBitAddr bitLen data dev
  | .num => (.rwErr, dev)

/-! ### How much a read stores -/

theorem halEfuseRead_length_le (arch : ChipArchVer) (startBit bitNum : Nat)
    (dev : Device) :
    (halEfuseRead arch startBit bitNum dev).data.length ≤ (bitNum + 7) / 8 := by
  unfold halEfuseRead
  split
  · exact Nat.zero_le _
  · split
    · exact List.length_take_le _ _
    · exact Nat.zero_le _

/-- The bytes of a field, for the user area those of `bitLen` bits. -/
def fieldBytes (field : EfpgField) (bitLen : Nat) : Nat :=
  match field with
  | .hosc => 1
  | .boot => 32
  | .mac => 6
  | .chipid => 16
  | .ua => (bitLen + 7) / 8
  | .num => 0

theorem readField_length_le (arch : ChipArchVer) (startBit bitNum : Nat)
    (dev after : Device) (data : List Byte)
    (stored : readField arch startBit bitNum dev = (.ok data, after)) :
    data.length ≤ (bitNum + 7) / 8 := by
  unfold readField at stored
  dsimp only at stored
  split at stored
  · have length := halEfuseRead_length_le arch startBit bitNum dev
    rw [Except.ok.inj (congrArg Prod.fst stored)] at length
    exact length
  · cases stored

theorem efpgReadBoot_length_le (arch : ChipArchVer) (dev after : Device)
    (read : BootRead) (run : efpgReadBoot arch dev = (.ok read, after)) :
    read.data.length ≤ 32 := by
  have num : ((fuseMap arch).bootHashNum + 7) / 8 = 32 := by
    cases arch <;> rfl
  unfold efpgReadBoot at run
  obtain ⟨bytes, between, -, run⟩ := run_bind_inv _ _ _ _ _ run
  dsimp only at run
  split at run
  · cases run
  · obtain ⟨data, between, hash, run⟩ := run_bind_inv _ _ _ _ _ run
    have short := readField_length_le _ _ _ _ _ _ hash
    rw [num] at short
    obtain ⟨bytes, between, -, run⟩ := run_bind_inv _ _ _ _ _ run
    split at run
    · cases run
      exact short
    · obtain ⟨bytes, between, -, run⟩ := run_bind_inv _ _ _ _ _ run
      obtain ⟨bytes, between, -, run⟩ := run_bind_inv _ _ _ _ _ run
      split at run
      · cases run
        rw [flipBit_length]
        exact short
      · obtain ⟨bytes, between, -, run⟩ := run_bind_inv _ _ _ _ _ run
        cases run
        rw [flipBit_length, flipBit_length]
        exact short

theorem bootStored_length_le (arch : ChipArchVer) (dev after : Device)
    (data : List Byte) (run : bootStored arch dev = (.ok data, after)) :
    data.length ≤ 32 := by
  have num : ((fuseMap arch).bootHashNum + 7) / 8 = 32 := by
    cases arch <;> rfl
  unfold bootStored at run
  obtain ⟨bytes, between, -, run⟩ := run_bind_inv _ _ _ _ _ run
  split at run
  · cases run
  · have short := readField_length_le _ _ _ _ _ _ run
    rw [num] at short
    exact short

theorem efpgReadRegion_length_le (arch : ChipArchVer) (info : RegionInfo)
    (dev : Device) :
    (efpgReadRegion arch info dev).data.length ≤ (info.dataBits + 7) / 8 := by
  unfold efpgReadRegion
  dsimp only
  split
  · exact Nat.zero_le _
  · split
    · exact Nat.zero_le _
    · split
      · exact Nat.zero_le _
      · exact halEfuseRead_length_le arch _ _ _

theorem efpgReadBootField_length_le (arch : ChipArchVer) (dev : Device) :
    (efpgReadBootField arch dev).stored.length ≤ 32 := by
  unfold efpgReadBootField
  cases outcome : efpgReadBoot arch dev with
  | mk answer after =>
      cases answer with
      | ok read => exact efpgReadBoot_length_le arch dev after read outcome
      | error ack =>
          dsimp only
          cases stored : bootStored arch dev with
          | mk answer after =>
              cases answer with
              | ok data => exact bootStored_length_le arch dev after data stored
              | error _ => exact Nat.zero_le _

theorem efpgReadField_length_le (arch : ChipArchVer) (field : EfpgField)
    (startBitAddr bitLen : Nat) (dev : Device) :
    (efpgReadField arch field startBitAddr bitLen dev).stored.length ≤
      fieldBytes field bitLen := by
  cases field with
  | hosc =>
      have stored := halEfuseRead_length_le arch (fuseMap arch).hoscTypeStart
        (fuseMap arch).hoscTypeNum dev
      cases arch <;> exact stored
  | boot => exact efpgReadBootField_length_le arch dev
  | mac =>
      have stored := efpgReadRegion_length_le arch (macRegion arch) dev
      cases arch <;> exact stored
  | chipid =>
      have stored := halEfuseRead_length_le arch (fuseMap arch).chipid1stStart
        (fuseMap arch).chipid1stNum dev
      cases arch <;> exact stored
  | ua =>
      change (efpgReadUserArea arch startBitAddr bitLen dev).stored.length ≤ _
      unfold efpgReadUserArea
      split
      · exact Nat.zero_le _
      · exact halEfuseRead_length_le arch _ _ dev
  | num => exact Nat.le_refl 0

end XR872.Efpg
