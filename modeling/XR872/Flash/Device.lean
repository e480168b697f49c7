/-
The flash device.

A call opens the driver around what it tells the chip. What chip and driver
answer is given; what they are told is a list of acts.
-/

import XR872.Library.BitView

namespace XR872.Flash

open BitView

abbrev HalStatus := Int

def halOk : HalStatus := 0
def halError : HalStatus := -1
def halInvalid : HalStatus := -4

def flashReadQpiMode : BitVec 8 := 1 <<< 6

/-- `struct FlashChip`: the functions for pages and for reading may be
missing. -/
structure FlashChip where
  mSize : BitVec 32
  mPageSize : Nat
  mReadSupport : BitVec 16
  mPageProgramSupport : BitVec 8
  pageProgram : Bool
  read : Bool
  paged : 0 < mPageSize

/-- `struct FlashDev`: the modes are enumerations of one byte. -/
structure FlashDev where
  chip : FlashChip
  rmode : BitVec 8
  wmode : BitVec 8

/-- What the driver and the chip are told. -/
inductive FlashAct where
  | open_
  | close
  | writeEnable
  | writeDisable
  | pageProgram (mode : BitVec 8) (addr : Nat) (data : List Byte)
  | read (mode : BitVec 8) (addr size : Nat)
  | minEraseSize
  | writeStatus
  | readStatus
  | disableQpiMode
  | switchReadMode (mode : BitVec 8)
  | enableQpiMode
  | waitCompl
deriving DecidableEq, Repr

/-- What the functions of the chip and `HAL_Flash_WaitCompl` return in a call,
for each page that is programmed. -/
structure FlashAnswers where
  pageProgram : Nat → HalStatus
  waitCompl : Nat → HalStatus
  read : HalStatus
  writeStatus : HalStatus
  readStatus : HalStatus
  disableQpiMode : HalStatus
  switchReadMode : HalStatus
  enableQpiMode : HalStatus

def Balanced (acts : List FlashAct) : Prop :=
  acts.count .open_ = acts.count .close

/-! ### `HAL_Flash_Write` -/

section

variable (dev : FlashDev) (answers : FlashAnswers) (data : Nat → Byte)

/-- The loop, from the page of a number on: what is returned and what has been
done. `ptr` is where it stands in the data. -/
def writeLoop (turn : Nat) (ret : HalStatus) (address ptr left : Nat) :
    HalStatus × List FlashAct :=
  if 0 < left then
    let ppSize := min left
      (dev.chip.mPageSize - address % dev.chip.mPageSize)
    let program : List FlashAct :=
      [.open_, .writeEnable,
        .pageProgram dev.wmode address ((List.range' ptr ppSize).map data),
        .writeDisable]
    if answers.pageProgram turn < 0 then (answers.pageProgram turn, program)
    else
      let rest := writeLoop (turn + 1) (answers.waitCompl turn)
        ((address + ppSize) % 2 ^ 32) (ptr + ppSize) (left - ppSize)
      (rest.1, program ++ [.waitCompl, .close] ++ rest.2)
  else (ret, [])
termination_by left
decreasing_by
  have room := Nat.mod_lt address dev.chip.paged
  omega

def halFlashWrite (addr size : BitVec 32) : HalStatus × List FlashAct :=
  if dev.chip.pageProgram = false ∨ size = 0 ∨ dev.chip.mSize < addr + size then
    (halInvalid, [])
  else writeLoop dev answers data 0 halError addr.toNat 0 size.toNat

end

section

variable (dev : FlashDev) (answers : FlashAnswers)

def halFlashRead (addr size : BitVec 32) : HalStatus × List FlashAct :=
  if dev.chip.read = false ∨ size = 0 ∨ dev.chip.mSize < addr + size then
    (halInvalid, [])
  else
    (answers.read,
      [.open_, .read dev.rmode addr.toNat size.toNat, .close])

/-! ### `HAL_Flash_Ioctl` -/

/-- `FlashControlCmd`, and any other number. -/
inductive FlashControlCmd where
  | getMinEraseSize
  | writeStatus
  | readStatus
  | enable32BitAddr
  | setReadMode
  | setPageProgramMode
  | other
deriving DecidableEq, Repr

/-- The second part of `FLASH_SET_READ_MODE`, to the mode that is stored. -/
def switchReadMode : HalStatus × List FlashAct :=
  let switching : List FlashAct := [.open_, .switchReadMode dev.rmode]
  if answers.switchReadMode ≠ halOk then (answers.switchReadMode, switching)
  else if dev.rmode &&& flashReadQpiMode ≠ 0 then
    (answers.enableQpiMode,
      switching ++ [.waitCompl, .enableQpiMode, .close])
  else (answers.switchReadMode, switching ++ [.waitCompl, .close])

/-- `FLASH_SET_READ_MODE`, when the mode has been stored and found supported:
`oldRmode` is the one before. -/
def setReadMode (oldRmode : BitVec 8) : HalStatus × List FlashAct :=
  if oldRmode = flashReadQpiMode then
    if answers.disableQpiMode ≠ halOk then
      (answers.disableQpiMode, [.open_, .disableQpiMode])
    else
      let switched := switchReadMode dev answers
      (switched.1,
        [.open_, .disableQpiMode, .waitCompl, .close] ++ switched.2)
  else switchReadMode dev answers

/-- `HAL_Flash_Ioctl`: the device afterwards, what is returned and what has
been done. Of the argument of a mode command the low byte is stored. -/
def halFlashIoctl (attr : FlashControlCmd) (arg : BitVec 32) :
    FlashDev × HalStatus × List FlashAct :=
  match attr with
  | .getMinEraseSize => (dev, halOk, [.minEraseSize])
  | .writeStatus =>
      (dev, answers.writeStatus,
        [.open_, .writeEnable, .writeStatus, .waitCompl, .writeDisable,
          .close])
  | .readStatus =>
      (dev, answers.readStatus, [.open_, .readStatus, .waitCompl, .close])
  | .setReadMode =>
      let oldRmode := dev.rmode
      let dev := { dev with rmode := arg.setWidth 8 }
      if dev.rmode.setWidth 16 &&& dev.chip.mReadSupport = 0 then
        (dev, halInvalid, [])
      else
        (dev, setReadMode dev answers oldRmode)
  | .setPageProgramMode =>
      let dev := { dev with wmode := arg.setWidth 8 }
      if dev.wmode &&& dev.chip.mPageProgramSupport = 0 then
        (dev, halInvalid, [])
      else (dev, halOk, [])
  | _ => (dev, halInvalid, [])

end

end XR872.Flash
