/-
The NEC protocol of the infrared remote control.

A code is sent as marks and spaces, each a byte: the level in the top bit and
the time in units of the clock in the others. Sender and receiver have their
constants for each clock they know.
-/

import XR872.Library.BitView

namespace XR872.Infrared

open BitView

/-- The build for the 32 kHz clock, or the oscillator `HAL_GetHFClock` gives. -/
inductive IrClock where
  | k32
  | m26
  | m24
  | other
deriving DecidableEq, Repr

/-! ### The sender -/

/-- `IRTX_xxx_9MS_NUM1` and the others. -/
structure IrTx where
  nineMs1 : Nat
  nineMs2 : Nat
  fourP5Ms : Nat
  us560 : Nat
  us1680 : Nat
deriving DecidableEq, Repr

/-- The constants of a sender with its sample time in microseconds. -/
def irTxOf (tsUs : Nat) : IrTx where
  nineMs1 := 0x7F
  nineMs2 := 9000 / tsUs - 0x7F
  fourP5Ms := 4500 / tsUs
  us560 := 560 / tsUs
  us1680 := 1680 / tsUs

def irtx32KTsUs : Nat := 61
def irtx26MTsUs : Nat := 39
def irtx24MTsUs : Nat := 43

def irTx : IrClock → Option IrTx
  | .k32 => some (irTxOf irtx32KTsUs)
  | .m26 => some (irTxOf irtx26MTsUs)
  | .m24 => some (irTxOf irtx24MTsUs)
  | .other => none

def mark (time : Nat) : Byte := 0x80 ||| BitVec.ofNat 8 time

def space (time : Nat) : Byte := BitVec.ofNat 8 time

/-- The bits of a byte that are left to send, from the lowest on. -/
def irtxBits (us560 us1680 : Nat) : Nat → Byte → List Byte
  | 0, _ => []
  | count + 1, txCode =>
      (if txCode &&& 0x01 ≠ 0 then [mark us560, space us1680]
        else [mark us560, space us560]) ++
        irtxBits us560 us1680 count (txCode >>> 1)

/-- `IRTX_NECPacket_Code`: what is put into the buffer. -/
def irtxNecPacketCode (clock : IrClock) (irTxCode : BitVec 32) : List Byte :=
  let txCode : List Byte :=
    [(irTxCode >>> 24).setWidth 8, (irTxCode >>> 16).setWidth 8,
      (irTxCode >>> 8).setWidth 8, (irTxCode &&& 0xFF).setWidth 8]
  let leader : List Byte :=
    match irTx clock with
    | some tx => [mark tx.nineMs1, mark tx.nineMs2, space tx.fourP5Ms]
    | none => []
  let us560 := ((irTx clock).map IrTx.us560).getD 0
  let us1680 := ((irTx clock).map IrTx.us1680).getD 0
  leader ++ txCode.flatMap (irtxBits us560 us1680 8) ++
    [mark us560, space us560, 0x7F, 0x7F, 0x7F, 0x7F]

def irNecCode (add key : Byte) : BitVec 32 :=
  let add := add.setWidth 32
  let key := key.setWidth 32
  (add <<< 24) ||| ((~~~add <<< 16) &&& 0x00FF0000) |||
    ((key <<< 8) ||| (~~~key &&& 0x00FF))

/-! ### The receiver -/

/-- `IRRX_xxx_ACTIVE_T` and the others. -/
structure IrRx where
  activeDelay : BitVec 32
  l1Min : BitVec 32
  l0Min : BitVec 32
  pmax : BitVec 32
  dmid : BitVec 32
  dmax : BitVec 32
deriving DecidableEq, Repr

def irRx : IrClock → IrRx
  | .k32 =>
      { activeDelay := (0 + 1) * 1
        l1Min := 112, l0Min := 56, pmax := 36, dmid := 36, dmax := 74 }
  | .m26 =>
      { activeDelay := (0 + 1) * 128
        l1Min := 80, l0Min := 41, pmax := 27, dmid := 27, dmax := 55 }
  | .m24 =>
      { activeDelay := (0 + 1) * 128
        l1Min := 70, l0Min := 40, pmax := 26, dmid := 26, dmax := 53 }
  | .other =>
      { activeDelay := 0, l1Min := 0, l0Min := 0, pmax := 0, dmid := 0
        dmax := 0 }

/-- `val & 0x80`. -/
def high (val : Byte) : Bool := val &&& 0x80 ≠ 0

/-- `val & 0x7f`. -/
def time (val : Byte) : BitVec 32 := (val &&& 0x7F).setWidth 32

section

variable (rx : IrRx)

/-- The loop that finds the mark of the leader: the last byte it has looked at,
the length, and what it leaves, that byte in front if it has found it. -/
def findLead1 : List Byte → Byte → BitVec 32 → Byte × BitVec 32 × List Byte
  | [], val, len => (val, len, [])
  | val :: buf, _, len =>
      if high val then findLead1 buf val (len + time val)
      else if rx.l1Min < len then (val, len, val :: buf)
      else findLead1 buf val 0

/-- The loop that finds the space of the leader. -/
def findLead0 : List Byte → Byte → BitVec 32 → Byte × BitVec 32 × List Byte
  | [], val, len => (val, len, [])
  | val :: buf, _, len =>
      if high val then
        if rx.l0Min < len then (val, len, val :: buf)
        else findLead0 buf val 0
      else findLead0 buf val (len + time val)

/-- The loop over the bits; without a value it leads to `error_code`. -/
def decodeBits : List Byte → Bool → BitVec 32 → Nat → BitVec 32 →
    Option (BitVec 32)
  | [], _, _, _, code => some code
  | val :: buf, true, len, bitCnt, code =>
      if high val then decodeBits buf true (len + time val) bitCnt code
      else if rx.pmax < len then none
      else decodeBits buf false (time val) bitCnt code
  | val :: buf, false, len, bitCnt, code =>
      if high val then
        if rx.dmax < len then none
        else
          let code :=
            if rx.dmid < len then code ||| ((1 : BitVec 32) <<< bitCnt)
            else code
          if bitCnt + 1 = 32 then some code
          else decodeBits buf true (time val) (bitCnt + 1) code
      else decodeBits buf false (len + time val) bitCnt code

end

def irrxNecPacketDeCode (clock : IrClock) (buf : List Byte) : BitVec 32 :=
  let rx := irRx clock
  let (val, len, buf) := findLead1 rx buf 0 (rx.activeDelay >>> 1)
  if high val ∨ len ≤ rx.l1Min then -1
  else
    let (val, len, buf) := findLead0 rx buf val 0
    if ¬ high val ∨ len ≤ rx.l0Min then -1
    else (decodeBits rx buf true 0 0 0).getD (-1)

end XR872.Infrared
