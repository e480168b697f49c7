/-
The fuse map of `efpg/efpg_i.h` and the slotted one-time regions of
`efpg/efpg_efuse.c`.

A region is a field of two-bit atomic flags followed by as many data slots. A
new value goes into the slot below the lowest one in use, so the reader's first
flagged slot is the newest value. Of the map only the fields that a modelled
function reads are listed; the DCXO and power calibration fields of the first
chip generation have no user left in the source.
-/

import XR872.Chip.EfuseWrite

namespace XR872.Efpg

open BitView
open Chip.Efuse

/-! ### Fuse map -/

/-- The `EFPG_ACK_*` codes. -/
inductive EfpgAck where
  | ok
  | csErr
  | mdErr
  | parseErr
  | rwErr
  | diErr
  | nodataErr
deriving DecidableEq, Repr

def EfpgAck.code : EfpgAck → BitVec 16
  | .ok => 200
  | .csErr => 400
  | .mdErr => 401
  | .parseErr => 402
  | .rwErr => 403
  | .diErr => 404
  | .nodataErr => 405

/-- `efpg_field_t`; `EFPG_FIELD_NUM` is the value outside every field. -/
inductive EfpgField where
  | hosc
  | boot
  | mac
  | chipid
  | ua
  | num
deriving DecidableEq, Repr

/-- The `EFPG_*_START` and `EFPG_*_NUM` constants of one chip generation. -/
structure FuseMap where
  hoscTypeStart : Nat
  hoscTypeNum : Nat
  bootFlagStart : Nat
  bootFlagNum : Nat
  boot1stEnStart : Nat
  boot1stEnNum : Nat
  boot1stNoStart : Nat
  boot1stNoNum : Nat
  boot2ndEnStart : Nat
  boot2ndEnNum : Nat
  boot2ndNoStart : Nat
  boot2ndNoNum : Nat
  bootHashStart : Nat
  bootHashNum : Nat
  macFlagStart : Nat
  macFlagNum : Nat
  macAddrStart : Nat
  macAddrNum : Nat
  chipid1stStart : Nat
  chipid1stNum : Nat
  userAreaStart : Nat
  userAreaNum : Nat

def fuseMap : ChipArchVer → FuseMap
  | .one =>
      { hoscTypeStart := 328, hoscTypeNum := 4
        bootFlagStart := 332, bootFlagNum := 2
        boot1stEnStart := 334, boot1stEnNum := 1
        boot1stNoStart := 335, boot1stNoNum := 8
        boot2ndEnStart := 343, boot2ndEnNum := 1
        boot2ndNoStart := 344, boot2ndNoNum := 8
        bootHashStart := 352, bootHashNum := 256
        macFlagStart := 997, macFlagNum := 18
        macAddrStart := 1015, macAddrNum := 48
        chipid1stStart := 200, chipid1stNum := 128
        userAreaStart := 1447, userAreaNum := 601 }
  | .two =>
      { hoscTypeStart := 242, hoscTypeNum := 4
        bootFlagStart := 246, bootFlagNum := 2
        boot1stEnStart := 248, boot1stEnNum := 1
        boot1stNoStart := 249, boot1stNoNum := 8
        boot2ndEnStart := 257, boot2ndEnNum := 1
        boot2ndNoStart := 258, boot2ndNoNum := 8
        bootHashStart := 266, bootHashNum := 256
        macFlagStart := 522, macFlagNum := 6
        macAddrStart := 528, macAddrNum := 48
        chipid1stStart := 114, chipid1stNum := 128
        userAreaStart := 672, userAreaNum := 352 }

/-! `EFPG_*_BUF_LEN`. -/

def efpgHoscBufLen : Nat := 1

def efpgBootBufLen : Nat := 32

def efpgChipidBufLen : Nat := 16

/-! ### Regions -/

/-- `efpg_region_info_t`. Its scratch buffer is local to `efpg_write_region`
here, as long as the value it holds. -/
structure RegionInfo where
  flagStart : Nat
  flagBits : Nat
  dataStart : Nat
  dataBits : Nat
deriving DecidableEq, Repr

def regionAtomicFlagMask : BitVec 32 := 0x3

def regionAtomicFlagBits : Nat := 2

/-- A byte variable after a read of at most eight bits into it. -/
def storeByte (old : Byte) (data : List Byte) : Byte :=
  data.headD old

/-- `efpg_bit_cmp`; true stands for the result 0. -/
def efpgBitCmp (b1 b2 : List Byte) (n : Nat) : Bool :=
  let bytes := n / 8
  let bits := n % 8
  let mask : Byte := (1#8 <<< bits) - 1#8
  decide (b1.take bytes = b2.take bytes) &&
    (decide (bits = 0) ||
      decide (b1.getD bytes 0 &&& mask = b2.getD bytes 0 &&& mask))

/-- The reader's scan of `flag`, which is not 0: the shift reaches a set bit
within the 16 pairs of the word. -/
def efpgReadRegionScan : Nat → BitVec 32 → Nat → Nat
  | 0, _, idx => idx
  | fuel + 1, flag, idx =>
      if flag &&& regionAtomicFlagMask = 0 then
        efpgReadRegionScan fuel (flag >>> regionAtomicFlagBits) (idx + 1)
      else idx

structure RegionRead where
  ack : EfpgAck
  data : List Byte
  /-- The slot that was read. -/
  idx : Nat
  dev : Device
deriving DecidableEq, Repr

def efpgReadRegion (arch : ChipArchVer) (info : RegionInfo)
    (dev : Device) : RegionRead :=
  let r := halEfuseRead arch info.flagStart info.flagBits dev
  if r.status ≠ .ok then { ack := .rwErr, data := [], idx := 0, dev := r.dev }
  else
    let flag := ofBytes 32 r.data
    if flag = 0 then { ack := .nodataErr, data := [], idx := 0, dev := r.dev }
    else
      let idx := efpgReadRegionScan 16 flag 0
      let startBit := info.dataStart + idx * info.dataBits
      let r := halEfuseRead arch startBit info.dataBits r.dev
      if r.status ≠ .ok then
        { ack := .rwErr, data := [], idx := idx, dev := r.dev }
      else { ack := .ok, data := r.data, idx := idx, dev := r.dev }

/-- The writer's scan: stops at the first used flag or at `idx_max`. -/
def efpgWriteRegionScan (idxMax : Nat) : Nat → BitVec 32 → Nat → Nat
  | 0, _, idx => idx
  | fuel + 1, flag, idx =>
      if flag &&& regionAtomicFlagMask = 0 ∧ idx < idxMax then
        efpgWriteRegionScan idxMax fuel (flag >>> regionAtomicFlagBits) (idx + 1)
      else idx

structure RegionWrite where
  ack : EfpgAck
  /-- The slots whose flag was programmed, last one first. -/
  tried : List Nat
  dev : Device
deriving DecidableEq, Repr

/-- The slot loop of `efpg_write_region`; the source's `idx` is `slot + 1`. -/
def efpgWriteRegionLoop (arch : ChipArchVer) (info : RegionInfo)
    (data : List Byte) : Nat → List Nat → Device → RegionWrite
  | 0, tried, dev => { ack := .diErr, tried := tried, dev := dev }
  | slot + 1, tried, dev =>
      let tmp : Byte := regionAtomicFlagMask.setWidth 8
      let startBit := info.flagStart + slot * regionAtomicFlagBits
      let tried := slot :: tried
      let (status, dev) :=
        halEfuseWrite arch startBit regionAtomicFlagBits [tmp] dev
      if status ≠ .ok then { ack := .rwErr, tried := tried, dev := dev }
      else
        let r := halEfuseRead arch startBit regionAtomicFlagBits dev
        if r.status ≠ .ok then { ack := .rwErr, tried := tried, dev := r.dev }
        else if storeByte tmp r.data = 0 then
          efpgWriteRegionLoop arch info data slot tried r.dev
        else
          let startBit := info.dataStart + slot * info.dataBits
          let (status, dev) :=
            halEfuseWrite arch startBit info.dataBits data r.dev
          if status ≠ .ok then { ack := .rwErr, tried := tried, dev := dev }
          else
            let r := halEfuseRead arch startBit info.dataBits dev
            if r.status ≠ .ok then
              { ack := .rwErr, tried := tried, dev := r.dev }
            else if efpgBitCmp data r.data info.dataBits then
              { ack := .ok, tried := tried, dev := r.dev }
            else efpgWriteRegionLoop arch info data slot tried r.dev

def efpgWriteRegion (arch : ChipArchVer) (info : RegionInfo)
    (data : List Byte) (dev : Device) : RegionWrite :=
  let r := halEfuseRead arch info.flagStart info.flagBits dev
  if r.status ≠ .ok then { ack := .rwErr, tried := [], dev := r.dev }
  else
    let idxMax := info.flagBits / regionAtomicFlagBits
    let idx := efpgWriteRegionScan idxMax idxMax (ofBytes 32 r.data) 0
    efpgWriteRegionLoop arch info data idx [] r.dev

/-- The region that `efpg_rw_mac` passes to both functions. -/
def macRegion (arch : ChipArchVer) : RegionInfo :=
  { flagStart := (fuseMap arch).macFlagStart
    flagBits := (fuseMap arch).macFlagNum
    dataStart := (fuseMap arch).macAddrStart
    dataBits := (fuseMap arch).macAddrNum }

def efpgReadMac (arch : ChipArchVer) (dev : Device) : RegionRead :=
  efpgReadRegion arch (macRegion arch) dev

def efpgWriteMac (arch : ChipArchVer) (data : List Byte)
    (dev : Device) : RegionWrite :=
  efpgWriteRegion arch (macRegion arch) data dev

end XR872.Efpg
