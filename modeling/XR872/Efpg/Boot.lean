/-
The secure-boot hash field of `efpg/efpg_efuse.c`.

The hash is stored with up to two corrections. A correction is an enable fuse
and an eight-bit position; the reader inverts the hash bit at every enabled
position.
-/

import XR872.Efpg.Region
import XR872.Library.Fallible

namespace XR872.Efpg

open BitView
open Chip.Efuse

/-- A function of `efpg_efuse.c` that gives up on the first driver call that
fails; the state is the driver's. -/
abbrev EfuseM (α : Type) := ExceptT EfpgAck (StateM Device) α

/-- `HAL_EFUSE_Read`, with `EFPG_ACK_RW_ERR` when it is turned away. -/
def readField (arch : ChipArchVer) (startBit bitNum : Nat) :
    EfuseM (List Byte) :=
  fun dev =>
    let r := halEfuseRead arch startBit bitNum dev
    if r.status = .ok then (.ok r.data, r.dev) else (.error .rwErr, r.dev)

/-- `HAL_EFUSE_Write`, with `EFPG_ACK_RW_ERR` when it is turned away. -/
def writeField (arch : ChipArchVer) (startBit bitNum : Nat)
    (data : List Byte) : EfuseM Unit :=
  fun dev =>
    match halEfuseWrite arch startBit bitNum data dev with
    | (.ok, dev) => (.ok (), dev)
    | (_, dev) => (.error .rwErr, dev)

/-! ### Comparison -/

/-- `err_cnt`, `err_1st_no` and `err_2nd_no`. -/
structure HashErrors where
  errCnt : Nat
  err1stNo : Byte
  err2ndNo : Byte
deriving DecidableEq, Repr

/-- The body of the bit loop; `none` is the early `return -1`. -/
def efpgBootHashCmpBit (data buf : Byte) (byteCnt : Nat) (errs : HashErrors)
    (bitCnt : Nat) : Option HashErrors :=
  let no : Byte := (BitVec.ofNat 8 byteCnt <<< 3) + BitVec.ofNat 8 bitCnt
  if data &&& (1#8 <<< bitCnt) = buf &&& (1#8 <<< bitCnt) then some errs
  else if errs.errCnt = 0 then some { errs with err1stNo := no, errCnt := 1 }
  else if errs.errCnt = 1 then some { errs with err2ndNo := no, errCnt := 2 }
  else none

def efpgBootHashCmpByte (data buf : List Byte) (errs : HashErrors)
    (byteCnt : Nat) : Option HashErrors :=
  if data.getD byteCnt 0 = buf.getD byteCnt 0 then some errs
  else
    (List.range 8).foldlM
      (efpgBootHashCmpBit (data.getD byteCnt 0) (buf.getD byteCnt 0) byteCnt)
      errs

/-- `efpg_boot_hash_cmp`, from the zeroed error variables of its caller. -/
def efpgBootHashCmp (data buf : List Byte) : Option HashErrors :=
  let errs : HashErrors := { errCnt := 0, err1stNo := 0, err2ndNo := 0 }
  if data = buf then some errs
  else (List.range efpgBootBufLen).foldlM (efpgBootHashCmpByte data buf) errs

/-! ### Reader -/

/-- `data[no >> 3] ^= 1 << (no & 7)`. -/
def flipBit (data : List Byte) (no : Byte) : List Byte :=
  data.modify (no >>> 3).toNat fun byte => byte ^^^ (1#8 <<< (no &&& 0x07).toNat)

structure BootRead where
  data : List Byte
  /-- The positions inverted, in order. -/
  corrected : List Byte
deriving DecidableEq, Repr

def efpgReadBoot (arch : ChipArchVer) : EfuseM BootRead := do
  let m := fuseMap arch
  let tmp ← readField arch m.bootFlagStart m.bootFlagNum
  let tmp := storeByte 0 tmp
  if tmp = 0 then throw .nodataErr
  else
    let data ← readField arch m.bootHashStart m.bootHashNum
    let bytes ← readField arch m.boot1stEnStart m.boot1stEnNum
    let tmp := storeByte tmp bytes
    if tmp = 0 then pure { data := data, corrected := [] }
    else
      let bytes ← readField arch m.boot1stNoStart m.boot1stNoNum
      let no1 := storeByte tmp bytes
      let data := flipBit data no1
      let bytes ← readField arch m.boot2ndEnStart m.boot2ndEnNum
      let tmp := storeByte no1 bytes
      if tmp = 0 then pure { data := data, corrected := [no1] }
      else
        let bytes ← readField arch m.boot2ndNoStart m.boot2ndNoNum
        let no2 := storeByte tmp bytes
        pure { data := flipBit data no2, corrected := [no1, no2] }

/-! ### Writer -/

/-- The two blocks of `efpg_write_boot` that store a correction: enable fuse and
position, each read back and compared. -/
def efpgWriteBootError (arch : ChipArchVer) (enStart enNum noStart noNum : Nat)
    (errNo : Byte) : EfuseM Unit := do
  writeField arch enStart enNum [0x01]
  let bytes ← readField arch enStart enNum
  let tmp := storeByte 0x01 bytes
  if tmp ≠ 0x01 then throw .diErr
  else
    writeField arch noStart noNum [errNo]
    let bytes ← readField arch noStart noNum
    if errNo ≠ storeByte tmp bytes then throw .diErr
    else pure ()

/-- The `error bit` part of `efpg_write_boot`. -/
def efpgWriteBootErrors (arch : ChipArchVer) (errs : HashErrors) :
    EfuseM Unit := do
  let m := fuseMap arch
  if 0 < errs.errCnt then
    efpgWriteBootError arch m.boot1stEnStart m.boot1stEnNum m.boot1stNoStart
      m.boot1stNoNum errs.err1stNo
    if errs.errCnt = 2 then
      efpgWriteBootError arch m.boot2ndEnStart m.boot2ndEnNum m.boot2ndNoStart
        m.boot2ndNoNum errs.err2ndNo
    else pure ()
  else pure ()

/-- The `flag` part of `efpg_write_boot`. -/
def efpgWriteBootFlag (arch : ChipArchVer) : EfuseM Unit := do
  let m := fuseMap arch
  writeField arch m.bootFlagStart m.bootFlagNum [0x03]
  let bytes ← readField arch m.bootFlagStart m.bootFlagNum
  if storeByte 0x03 bytes = 0 then throw .diErr else pure ()

def efpgWriteBoot (arch : ChipArchVer) (data : List Byte) : EfuseM Unit := do
  let m := fuseMap arch
  writeField arch m.bootHashStart m.bootHashNum data
  let buf ← readField arch m.bootHashStart m.bootHashNum
  match efpgBootHashCmp data buf with
  | none => throw .diErr
  | some errs =>
      efpgWriteBootErrors arch errs
      efpgWriteBootFlag arch

end XR872.Efpg
