/-
The eFuse driver, `driver/chip/hal_efuse.c`.

The controller is addressed through an 8-bit byte index, so it answers for 64
words whatever the size of the fuse array; the array itself is the low
`HAL_EFUSE_BIT_NUM` bits of that space. Programming a word sets fuses and never
clears one, and some fuses may not take the program at all.

Clock gating, the unlock code and the polling of the status bits are not
modelled: `EFUSE_ReadData` and `EFUSE_WriteData` are one step each. The word
buffer's `malloc` is taken to succeed.
-/

import XR872.Library.BitView

namespace XR872.Chip.Efuse

open XR872.BitView

/-- `__CONFIG_CHIP_ARCH_VER`. -/
inductive ChipArchVer where
  | one
  | two
deriving DecidableEq, Repr

def halEfuseBitNum : ChipArchVer → Nat
  | .one => 2048
  | .two => 1024

/-- The results of `HAL_Status` that the driver returns. -/
inductive HalStatus where
  | ok
  | error
  | busy
deriving DecidableEq, Repr

inductive EfuseState where
  | invalid
  | ready
  | busy
deriving DecidableEq, Repr

/-- The driver's global state and the fuses behind the controller. -/
structure Device where
  /-- `gEfuseState`. -/
  state : EfuseState
  /-- What `HAL_GetHFClock` answers. -/
  hfClock : Nat
  /-- What the 64 addressable words read as. -/
  sid : BitVec 2048
  /-- Fuses on which a program silently fails. -/
  stuck : BitVec 2048
deriving DecidableEq, Repr

def hoscClock24M : Nat := 24000000

def hoscClock26M : Nat := 26000000

/-- `EFUSE_Init`: the timing word is the same for both supported crystals. -/
def efuseInit (hfClock : Nat) : HalStatus :=
  if hfClock = hoscClock24M then .ok
  else if hfClock = hoscClock26M then .ok
  else .error

/-- The byte index that `EFUSE_SetIndex` leaves in the 8-bit field of `CTRL`
for a word index passed as `uint8_t`. -/
def efuseSetIndex (index : Nat) : Nat :=
  ((index % 256) <<< 2) % 256

def efuseReadData (sid : BitVec 2048) (index : Nat) : BitVec 32 :=
  sid.extractLsb' (8 * efuseSetIndex index) 32

def efuseWriteData (dev : Device) (index : Nat) (data : BitVec 32) : Device :=
  { dev with
    sid := dev.sid |||
      ((data.setWidth 2048 <<< (8 * efuseSetIndex index)) &&& ~~~dev.stuck) }

/-- The critical section that opens `HAL_EFUSE_Read` and `HAL_EFUSE_Write`:
the first user initializes the controller, a second one is turned away. -/
def efuseAcquire (dev : Device) : HalStatus × Device :=
  match dev.state with
  | .invalid =>
      if efuseInit dev.hfClock = .ok then (.ok, { dev with state := .busy })
      else (.error, { dev with state := .invalid })
  | .ready => (.ok, { dev with state := .busy })
  | .busy => (.busy, dev)

/-- The parameter check of both entry points; their buffers are never NULL
here. The sum does not wrap once the bounds before it hold. -/
def halEfuseRejects (arch : ChipArchVer) (startBit bitNum : Nat) : Bool :=
  decide (halEfuseBitNum arch ≤ startBit) || decide (bitNum = 0) ||
    decide (halEfuseBitNum arch < bitNum) ||
    decide (halEfuseBitNum arch < startBit + bitNum)

structure ReadResult where
  status : HalStatus
  /-- The bytes stored at `data`; none when the read is turned away. -/
  data : List Byte
  dev : Device
deriving DecidableEq, Repr

/-- `HAL_EFUSE_Read`. A shift by `32 - word_shift = 32` is a register shift on
this core and gives zero. The word count is at most 65 and fits its
`uint8_t`. -/
def halEfuseRead (arch : ChipArchVer) (startBit bitNum : Nat)
    (dev : Device) : ReadResult :=
  if halEfuseRejects arch startBit bitNum then
    { status := .error, data := [], dev := dev }
  else
    match efuseAcquire dev with
    | (.ok, dev) =>
        let startWord := startBit / 32
        let wordShift := startBit % 32
        let wordCnt := (startBit + bitNum) / 32 - startWord + 1
        let sidData := (List.range wordCnt).map fun i =>
          efuseReadData dev.sid (startWord + i)
        { status := .ok
          data := ((funnel wordShift sidData).flatMap toBytes).take
            ((bitNum + 7) / 8)
          dev := { dev with state := .ready } }
    | (status, dev) => { status := status, data := [], dev := dev }

/-- `(1U << bit_cnt) - 1`, applied when fewer than 32 bits remain. -/
def efuseMask (bitCnt : Nat) (word : BitVec 32) : BitVec 32 :=
  if bitCnt < 32 then word &&& ((1#32 <<< bitCnt) - 1#32) else word

/-- The loop of `HAL_EFUSE_Write` over the words after the first. `data` is the
buffer from `p_data` on; each pass clears at least one of `bitCnt`, so a fuel of
`bitCnt` is never used up. -/
def halEfuseWriteLoop (bitShift : Nat) :
    Nat → Nat → Nat → List Byte → Device → Device
  | 0, _, _, _, dev => dev
  | fuel + 1, bitCnt, wordIdx, data, dev =>
      if bitCnt = 0 then dev
      else
        let buf := ofBytes 64 data <<< bitShift
        let word := efuseMask bitCnt (buf.extractLsb' 32 32)
        halEfuseWriteLoop bitShift fuel
          (bitCnt - if bitCnt ≤ 32 then bitCnt else 32) (wordIdx + 1)
          (data.drop 4) (efuseWriteData dev wordIdx word)

/-- `HAL_EFUSE_Write`. The loads of four and eight bytes may run past the end
of `data`; what they find there is masked off or shifted out. -/
def halEfuseWrite (arch : ChipArchVer) (startBit bitNum : Nat)
    (data : List Byte) (dev : Device) : HalStatus × Device :=
  if halEfuseRejects arch startBit bitNum then (.error, dev)
  else
    match efuseAcquire dev with
    | (.ok, dev) =>
        let bitShift := startBit % 32
        let wordIdx := startBit / 32
        let word := efuseMask bitNum (ofBytes 32 data) <<< bitShift
        let dev := efuseWriteData dev wordIdx word
        let bitCnt :=
          bitNum - if bitNum ≤ 32 - bitShift then bitNum else 32 - bitShift
        let dev :=
          halEfuseWriteLoop bitShift bitCnt bitCnt (wordIdx + 1) data dev
        (.ok, { dev with state := .ready })
    | (status, dev) => (status, dev)

end XR872.Chip.Efuse
