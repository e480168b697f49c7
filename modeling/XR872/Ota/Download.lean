/-
The download of an image into the other slot.

The slot is erased, the bootloader in front of the image is received and
dropped, and the rest is written piece by piece. The pieces are cut by the
protocol; erase, write and connection may fail at any point.
-/

import XR872.Image.Image
import XR872.Library.Memory
import XR872.Library.Run

namespace XR872.Ota

open BitView
open Images
open Memories
open Runs

inductive OtaStatus where
  | ok
  | error
deriving DecidableEq, Repr

/-- `image_ota_param_t`. The bootloader and an image have a size that fits a
`uint32_t`, and every slot ends inside the address space. -/
structure ImageOtaParam where
  imgMaxSize : Nat
  blSize : Nat
  runningSeq : ImageSeq
  flash : ImageSeq → Nat
  addr : ImageSeq → Nat
  sized : blSize + imgMaxSize < 2 ^ 32
  placed : ∀ seq, addr seq + imgMaxSize ≤ 2 ^ 32

/-- The content of the flash devices. -/
abbrev FlashMem := Nat → Nat → Byte

/-- A range of a device. -/
structure FlashRange where
  flash : Nat
  addr : Nat
  size : Nat
deriving DecidableEq, Repr

def storeFlash (mem : FlashMem) (flash addr : Nat) (data : List Byte) :
    FlashMem :=
  Function.update mem flash (store (mem flash) addr data)

/-- What a device makes of an erase or a write: whether it is done, and what it
leaves in the range, from its front on, if it is not or if it is an erase. -/
structure FlashAnswer where
  done : Bool
  left : List Byte
deriving DecidableEq, Repr

/-- `get_cb`: the next bytes of the stream, with the end of the stream
signalled or not, or a failure. -/
inductive OtaAnswer where
  | failed
  | piece (count : Nat) (eofFlag : Bool)
deriving DecidableEq, Repr

/-- One turn of the second loop: the piece, and what its write meets. -/
structure OtaTurn where
  get : OtaAnswer
  write : FlashAnswer
deriving DecidableEq, Repr

/-- What a download meets: the stream behind the url, the erase, `malloc`,
`init_cb`, `HAL_Flash_Open`, and the turns up to the last one that comes. -/
structure OtaEnv where
  stream : List Byte
  erase : FlashAnswer
  malloc : Bool
  init : OtaStatus
  flashOpen : Bool
  turns : List OtaTurn
deriving DecidableEq, Repr

def otaBufSize : Nat := 2 * 1024

/-- A piece is at most as long as requested, and the end of the stream is
signalled with the last one only. -/
def getPiece (rest : List Byte) (size : Nat) :
    OtaAnswer → Option (List Byte × Bool × List Byte)
  | .failed => none
  | .piece count eofFlag =>
      some (rest.take (min count size),
        eofFlag && (rest.drop (min count size)).isEmpty,
        rest.drop (min count size))

/-! ### The bootloader in front -/

/-- The first loop: the turns it leaves, if it gets to its end, what is left of
the stream, and what was received. -/
def skipBootloader : List OtaTurn → List Byte → Nat → Nat →
    Option (List OtaTurn) × List Byte × Nat
  | turns, rest, 0, getSize => (some turns, rest, getSize)
  | [], rest, _ + 1, getSize => (none, rest, getSize)
  | turn :: turns, rest, blSize + 1, getSize =>
      match getPiece rest (min (blSize + 1) otaBufSize) turn.get with
      | none => (none, rest, getSize)
      | some (data, eofFlag, rest) =>
          if eofFlag then (none, rest, getSize)
          else skipBootloader turns rest (blSize + 1 - data.length)
            (getSize + data.length)

/-! ### The image -/

/-- The second loop: the rest of the stream, what is received, what is left of
the slot, where the next piece goes, the flash, the ranges the device was asked
to change, whether a write failed, and how the loop was left. -/
structure OtaLoad where
  rest : List Byte
  getSize : Nat
  imgMaxSize : Nat
  addr : Nat
  mem : FlashMem
  touched : List FlashRange
  writeFailed : Bool
  ret : Option OtaStatus

/-- `HAL_Flash_Write`: refused for no data or behind the device's end, whose
sum is a `uint32_t`. -/
def halFlashWrite (mSize flash addr : Nat) (data : List Byte)
    (answer : FlashAnswer) (mem : FlashMem) :
    Bool × FlashMem × List FlashRange :=
  if data.length = 0 ∨ mSize < (addr + data.length) % 2 ^ 32 then
    (false, mem, [])
  else
    (answer.done,
      storeFlash mem flash addr
        (if answer.done then data else answer.left.take data.length),
      [{ flash, addr, size := data.length }])

def writeTurn (mSize flash : Nat) (load : OtaLoad) (turn : OtaTurn) : OtaLoad :=
  if load.ret ≠ none ∨ load.imgMaxSize = 0 then load
  else
    match getPiece load.rest (min load.imgMaxSize otaBufSize) turn.get with
    | none => { load with ret := some .error }
    | some (data, eofFlag, rest) =>
        let (written, mem, touched) :=
          halFlashWrite mSize flash load.addr data turn.write load.mem
        let load := { load with
          rest
          getSize := load.getSize + data.length
          imgMaxSize := load.imgMaxSize - data.length
          mem
          touched := load.touched ++ touched }
        if !written then { load with writeFailed := true, ret := some .error }
        else { load with
          addr := load.addr + data.length
          ret := if eofFlag then some .ok else none }

/-! ### `ota_update_image_process` -/

/-- What a download comes to: the status, `ota_priv.get_size`, what is left of
the stream, the flash, the ranges touched, and whether a write failed. -/
structure OtaResult where
  status : OtaStatus
  getSize : Nat
  rest : List Byte
  mem : FlashMem
  touched : List FlashRange
  writeFailed : Bool

section

variable (iop : ImageOtaParam) (mSize : Nat) (env : OtaEnv) (seq : ImageSeq)
  (getSize : Nat) (mem : FlashMem)

/-- The range of a slot. -/
def slotRange : FlashRange :=
  { flash := iop.flash seq, addr := iop.addr seq, size := iop.imgMaxSize }

/-- `flash_erase` of the slot. -/
def eraseSlot : FlashMem :=
  storeFlash mem (iop.flash seq) (iop.addr seq)
    (env.erase.left.take iop.imgMaxSize)

/-- Up to the second loop. A download that gets no further than to the
loop's front goes behind it with an error. -/
def prepareLoad : OtaResult ⊕ OtaLoad × List OtaTurn :=
  let start (getSize : Nat) (rest : List Byte) (ret : Option OtaStatus) :
      OtaLoad :=
    { rest, getSize, ret
      imgMaxSize := iop.imgMaxSize
      addr := iop.addr seq
      mem := eraseSlot iop env seq mem
      touched := [slotRange iop seq]
      writeFailed := false }
  if !env.erase.done || !env.malloc then
    .inl {
      status := .error
      getSize
      rest := env.stream
      mem := eraseSlot iop env seq mem
      touched := [slotRange iop seq]
      writeFailed := false }
  else if env.init ≠ .ok then
    .inr (start getSize env.stream (some .error), [])
  else
    match skipBootloader env.turns env.stream iop.blSize 0 with
    | (none, rest, getSize) => .inr (start getSize rest (some .error), [])
    | (some turns, rest, getSize) =>
        .inr (start getSize rest (if env.flashOpen then none else some .error),
          turns)

/-- `image_check_sections`, of the sequence's image in flash. -/
abbrev CheckSections := ImageSeq → FlashMem → Bool

/-- Behind the second loop. What is left of `img_max_size` stands for the
reason the loop was left. -/
def finishLoad (check : CheckSections) (load : OtaLoad) : OtaResult :=
  { status :=
      if load.ret ≠ some .ok ∧ load.imgMaxSize ≠ 0 then .error
      else if !check seq load.mem then .error
      else .ok
    getSize := load.getSize
    rest := load.rest
    mem := load.mem
    touched := load.touched
    writeFailed := load.writeFailed }

def otaUpdateImageProcess (check : CheckSections) : OtaResult :=
  match prepareLoad iop env seq getSize mem with
  | .inl result => result
  | .inr (load, turns) =>
      finishLoad seq check
        (run (writeTurn mSize (iop.flash seq)) load turns)

end

end XR872.Ota
