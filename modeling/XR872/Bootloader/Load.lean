/-
How the bootloader loads one section.

A plain body is read to its load address and checked there. A compressed one is
read piece by piece and run through the decoder, its checksum taken on the way.
-/

import XR872.Image.Image
import XR872.Library.Memory

namespace XR872.Bootloader

open BitView
open Images
open Memories

/-! ### The decoder -/

inductive XzRet where
  | ok
  | streamEnd
  | error (code : Nat)
deriving DecidableEq, Repr

/-- What a call of `xz_dec_run` comes to: it takes from the input and fills the
output within the sizes given. -/
structure XzAnswer (σ : Type) (input : List Byte) (room : Nat) where
  ret : XzRet
  decoder : σ
  inTaken : Nat
  within : inTaken ≤ input.length
  out : List Byte
  fits : out.length ≤ room

/-- `xz_dec_init` and `xz_dec_run`. -/
structure XzDec (σ : Type) where
  init : Option σ
  run : σ → (input : List Byte) → (room : Nat) → XzAnswer σ input room

/-- What the loader works with: the image functions, `malloc` and the
decoder. -/
structure BlEnv (σ : Type) where
  rom : ImageRom
  malloc : Bool
  xz : XzDec σ

variable {σ : Type} (env : BlEnv σ)

/-! ### `bl_decompress_bin` -/

def blDecBinInbufSize : Nat := 4 * 1024

/-- `struct xz_buf` and the loop's own variables. -/
structure BlDec (σ : Type) where
  input : List Byte
  outPos : Nat
  offset : Nat
  left : Nat
  chksum : BitVec 16
  written : List (BitVec 32 × Byte)
  decoder : σ

/-- Data put at the load address, from a position on. -/
def stored (loadAddr : BitVec 32) (pos : Nat) (data : List Byte) :
    List (BitVec 32 × Byte) :=
  (data.zipIdx pos).map fun (byte, index) =>
    (loadAddr + BitVec.ofNat 32 index, byte)

/-- The next piece of the body, when the last one is used up. -/
def refill (sh : SectionHeader) (dec : BlDec σ) : Option (BlDec σ) :=
  if dec.input ≠ [] then some dec
  else if dec.left = 0 then none
  else
    let readSize := min dec.left blDecBinInbufSize
    if env.rom.bodyRead sh.id dec.offset readSize ≠ readSize then none
    else
      let data := load (env.rom.body sh.id) dec.offset readSize
      some { dec with
        input := data
        offset := dec.offset + readSize
        left := dec.left - readSize
        chksum := dec.chksum + env.rom.checksum data }

/-- Where a pass of the loop leads: on, or out with what is returned. -/
inductive BlPass (σ : Type) where
  | next (dec : BlDec σ)
  | stop (ret : Int) (dec : BlDec σ)

def decompressPass (sh : SectionHeader) (outSize : Nat) (dec : BlDec σ) :
    BlPass σ :=
  match refill env sh dec with
  | none => .stop (-1) dec
  | some dec =>
      let answer := env.xz.run dec.decoder dec.input (outSize - dec.outPos)
      let dec := { dec with
        input := dec.input.drop answer.inTaken
        outPos := dec.outPos + answer.out.length
        written := dec.written ++ stored sh.loadAddr dec.outPos answer.out
        decoder := answer.decoder }
      if dec.outPos = outSize then .stop (-1) dec
      else
        match answer.ret with
        | .ok => .next dec
        | .streamEnd =>
            if dec.chksum ≠ 0xFFFF then .stop (-1) dec else .stop 0 dec
        | .error _ => .stop (-1) dec

/-- The loop after at most so many passes; without a value it still runs. -/
def decompressLoop (sh : SectionHeader) (outSize : Nat) :
    Nat → BlDec σ → Option Int × BlDec σ
  | 0, dec => (none, dec)
  | passes + 1, dec =>
      match decompressPass env sh outSize dec with
      | .next dec => decompressLoop sh outSize passes dec
      | .stop ret dec => (some ret, dec)

def BlDec.start (sh : SectionHeader) (decoder : σ) : BlDec σ :=
  { input := []
    outPos := 0
    offset := 0
    left := sh.bodyLen.toNat
    chksum := sh.dataChksum
    written := []
    decoder }

/-! ### `bl_load_bin_by_id` -/

/-- `BL_LOAD_BIN_OK` and its errors. -/
inductive BlLoadBin where
  | ok
  | noSec
  | invalid
  | tooBig
deriving DecidableEq, Repr

/-- What loading a section comes to: the value returned, if it is over, what
was written, the output size given to the decoder, how much of a compressed
body was never read, and the entry. -/
structure BlLoad where
  ret : Option BlLoadBin
  written : List (BitVec 32 × Byte)
  outSize : Option (BitVec 32)
  unread : Nat
  entry : Option (BitVec 32)
deriving DecidableEq, Repr

def BlLoad.failed (ret : BlLoadBin) : BlLoad :=
  { ret := some ret, written := [], outSize := none, unread := 0, entry := none }

def blLoadCompressed (sh : SectionHeader) (maxAddr : BitVec 32) (passes : Nat) :
    BlLoad :=
  if !env.malloc then .failed .invalid
  else
    match env.xz.init with
    | none => .failed .invalid
    | some decoder =>
        let outSize := maxAddr - sh.loadAddr
        let (ret, dec) := decompressLoop env sh outSize.toNat passes
          (.start sh decoder)
        { ret := ret.map fun ret => if ret ≠ 0 then .invalid else .ok
          written := dec.written
          outSize := some outSize
          unread := dec.left
          entry := if ret = some 0 then some sh.entry else none }

def blLoadPlain (id : BitVec 32) (sh : SectionHeader) (maxAddr : BitVec 32) :
    BlLoad :=
  if sh.bodyLen = 0 then .failed .noSec
  else if maxAddr < sh.loadAddr + sh.bodyLen then .failed .tooBig
  else
    let len := env.rom.bodyRead id 0 sh.bodyLen.toNat
    let data := load (env.rom.body id) 0 (min len sh.bodyLen.toNat)
    let result : BlLoad :=
      { ret := some .invalid
        written := stored sh.loadAddr 0 data
        outSize := none
        unread := 0
        entry := none }
    if len ≠ sh.bodyLen.toNat then result
    else if !env.rom.checkData sh data then result
    else { result with ret := some .ok, entry := some sh.entry }

def blLoadBinById (id : BitVec 32) (maxAddr : BitVec 32) (passes : Nat) :
    BlLoad :=
  let sh := env.rom.header id
  if env.rom.headerRead id ≠ imageHeaderSize then .failed .noSec
  else if !env.rom.checkHeader sh then .failed .invalid
  else if sh.attributes &&& imageAttrFlagCompress ≠ 0 then
    blLoadCompressed env sh maxAddr passes
  else blLoadPlain env id sh maxAddr

def blInvalidAppEntry : BitVec 32 := 0xFFFFFFFF

/-- `bl_load_app_bin`; `ramBase` is the start of the bootloader's own RAM. -/
def blLoadAppBin (ramBase : BitVec 32) (passes : Nat) : Option (BitVec 32) :=
  let result := blLoadBinById env imageAppId ramBase passes
  result.ret.map fun ret =>
    if ret ≠ .ok then blInvalidAppEntry
    else result.entry.getD blInvalidAppEntry

end XR872.Bootloader
