/-
Images in flash, as the bootloader and the update service see them.
-/

import XR872.Library.BitView

namespace XR872.Images

open BitView

def imageSeqNum : Nat := 2

abbrev ImageSeq := BitVec 8

theorem seq_cases (seq : ImageSeq) (below : seq.toNat < imageSeqNum) :
    seq = 0 ∨ seq = 1 := by
  change seq.toNat < 2 at below
  rcases (by omega : seq.toNat = 0 ∨ seq.toNat = 1) with zero | one
  · exact .inl (BitVec.eq_of_toNat_eq zero)
  · exact .inr (BitVec.eq_of_toNat_eq one)

/-- `image_state_t`, read from flash. -/
inductive ImageState where
  | unverified
  | verified
  | undefined
  | other (value : BitVec 32)
deriving DecidableEq, Repr

structure ImageCfg where
  seq : ImageSeq
  state : ImageState
deriving DecidableEq, Repr

structure SectionHeader where
  magicNumber : BitVec 32
  version : BitVec 32
  headerChksum : BitVec 16
  dataChksum : BitVec 16
  dataSize : BitVec 32
  loadAddr : BitVec 32
  entry : BitVec 32
  bodyLen : BitVec 32
  attributes : BitVec 32
  nextAddr : BitVec 32
  id : BitVec 32
  priv : List (BitVec 32)
deriving DecidableEq, Repr

def imageHeaderSize : Nat := 64

def imageAttrFlagCompress : BitVec 32 := 1 <<< 4

def imageAppId : BitVec 32 := 0xA5FE5A01

/-- The image functions of the ROM at one running sequence and one content of
the flash: how many bytes of a header or a body are read, what they are, and
what the checks say. -/
structure ImageRom where
  headerRead : BitVec 32 → Nat
  header : BitVec 32 → SectionHeader
  bodyRead : BitVec 32 → Nat → Nat → Nat
  body : BitVec 32 → Nat → Byte
  checkHeader : SectionHeader → Bool
  checkData : SectionHeader → List Byte → Bool
  checksum : List Byte → BitVec 16

end XR872.Images
