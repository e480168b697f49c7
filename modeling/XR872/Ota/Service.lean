/-
The update service.

`ota_get_image` downloads into the other slot, `ota_verify_image` checks what
was downloaded and names the slot in the configuration. What one leaves for the
other is `get_size`.
-/

import XR872.Bootloader.Select
import XR872.Ota.Download

namespace XR872.Ota

open BitView
open Bootloader (imageInvalidAddr)
open Images
open Memories

inductive OtaProtocol where
  | file
  | http
  | other
deriving DecidableEq, Repr

inductive OtaDigest where
  | crc32
  | md5
  | sha1
  | sha256
deriving DecidableEq, Repr

inductive OtaVerify where
  | none
  | digest (algorithm : OtaDigest)
  | other
deriving DecidableEq, Repr

/-- What a configuration reads as that was not written to its end. -/
abbrev UnusableCfg :=
  { cfg : Option ImageCfg //
    ∀ written, cfg = some written → written.state ≠ .verified }

/-- What becomes of `image_set_cfg`: the configuration is written, the old one
stays, or neither is left. -/
inductive CfgAnswer where
  | done
  | kept
  | lost (left : UnusableCfg)

/-- What the service stands on: the parameters of `image_get_ota_param`, the
size of each flash device, `image_check_header`, `image_check_sections` and the
digests, CRC with the size it is announced. No chip is larger than 256 MiB, and
the slots lie on their devices. -/
structure OtaPlatform where
  iop : ImageOtaParam
  mSize : Nat → Nat
  checkHeader : SectionHeader → Bool
  check : CheckSections
  digest : OtaDigest → Nat → List Byte → List (BitVec 32)
  small : ∀ flash, mSize flash ≤ 2 ^ 28
  onDevice : ∀ seq, iop.addr seq + iop.imgMaxSize ≤ mSize (iop.flash seq)

/-- `ota_priv`, the flash and the configuration. Beside these the status of the
last `ota_get_image` is kept, and the last download that got to the flash. -/
structure OtaState where
  iop : Option ImageOtaParam
  getSize : Nat
  mem : FlashMem
  cfg : Option ImageCfg
  last : Option OtaStatus
  written : Option OtaResult

def otaUpdateSeqPolicy : List ImageSeq := [1, 0]

def otaGetUpdateSeq (iop : Option ImageOtaParam) : ImageSeq :=
  match iop with
  | none => BitVec.ofNat 8 imageSeqNum
  | some iop =>
      if iop.imgMaxSize = 0 ∨ iop.blSize = 0 ∨
          imageSeqNum ≤ iop.runningSeq.toNat then
        BitVec.ofNat 8 imageSeqNum
      else
        otaUpdateSeqPolicy.getD iop.runningSeq.toNat
          (BitVec.ofNat 8 imageSeqNum)

section

variable (platform : OtaPlatform)

def otaInit (state : OtaState) : OtaState :=
  { state with iop := some platform.iop, getSize := 0 }

def otaDeinit (state : OtaState) : OtaState :=
  { state with iop := none, getSize := 0 }

/-! ### `ota_get_image` -/

def otaUpdateImage (env : OtaEnv) (state : OtaState) : OtaStatus × OtaState :=
  let seq := otaGetUpdateSeq state.iop
  match state.iop with
  | none => (.error, state)
  | some iop =>
      if seq.toNat < imageSeqNum then
        let result := otaUpdateImageProcess iop (platform.mSize (iop.flash seq))
          env seq state.getSize state.mem platform.check
        (result.status, { state with
          getSize := result.getSize
          mem := result.mem
          written := some result })
      else (.error, state)

/-- `url` is what the url leads to, if it is not `NULL`. -/
def otaGetImage (protocol : OtaProtocol) (url : Option OtaEnv)
    (state : OtaState) : OtaStatus × OtaState :=
  match url with
  | none => (.error, state)
  | some env =>
      let state := otaInit platform state
      match protocol with
      | .file => otaUpdateImage platform env state
      | .http => otaUpdateImage platform env state
      | .other => (.error, state)

/-! ### `ota_get_verify_data` -/

structure OtaVerifyData where
  ovMagic : BitVec 32
  ovLength : BitVec 16
  ovVersion : BitVec 16
  ovType : BitVec 16
  ovReserve : BitVec 16
  ovData : List Byte
deriving DecidableEq, Repr

def otaVerifyMagic : BitVec 32 := 0x0055AAFF

/-- What is read: the headers from the bootloader's on, as far as they can be
read, and the data behind the last section. -/
structure VerifyDataEnv where
  blOpen : Bool
  headers : List (Option SectionHeader)
  flashOpen : Bool
  data : Option OtaVerifyData

/-- The loop of `ota_get_verify_data_pos`. -/
def verifyDataPos (iop : ImageOtaParam) (seq : ImageSeq) :
    List (Option SectionHeader) → BitVec 32 → BitVec 32
  | [], _ => 0
  | none :: _, _ => 0
  | some sh :: headers, addr =>
      if !platform.checkHeader sh then 0
      else if sh.nextAddr = imageInvalidAddr then
        addr + BitVec.ofNat 32 imageHeaderSize + sh.dataSize
      else
        verifyDataPos iop seq headers
          (BitVec.ofNat 32 (iop.addr seq) + sh.nextAddr -
            BitVec.ofNat 32 iop.blSize)

def otaGetVerifyDataPos (iop : ImageOtaParam) (env : VerifyDataEnv)
    (seq : ImageSeq) : BitVec 32 :=
  if imageSeqNum ≤ seq.toNat then 0
  else if !env.blOpen then 0
  else
    verifyDataPos platform iop seq env.headers
      (BitVec.ofNat 32 (iop.addr 0) - BitVec.ofNat 32 iop.blSize)

/-- The status, and what is left in `*data`. -/
def otaGetVerifyData (env : VerifyDataEnv) (state : OtaState) :
    OtaStatus × Option OtaVerifyData :=
  let seq := otaGetUpdateSeq state.iop
  match state.iop with
  | none => (.error, none)
  | some iop =>
      if imageSeqNum ≤ seq.toNat then (.error, none)
      else if state.getSize = 0 then (.error, none)
      else if otaGetVerifyDataPos platform iop env seq = 0 then (.error, none)
      else if !env.flashOpen then (.error, none)
      else
        match env.data with
        | none => (.error, none)
        | some data =>
            if data.ovMagic ≠ otaVerifyMagic then (.error, some data)
            else (.ok, some data)

/-! ### `ota_verify_image` -/

/-- `sizeof(ota_verify_data_t)`. -/
def otaVerifyDataSize : Nat := 44

/-- One pass of the append loop: `HAL_Flash_Read` and `append`. -/
structure ChunkAnswer where
  read : Bool
  append : Bool
deriving DecidableEq, Repr

/-- What a digest meets: `HAL_xxx_Init`, `HAL_Flash_Open`, `malloc`, the passes
of the append loop up to the last one that comes, and `HAL_xxx_Finish`. -/
structure DigestEnv where
  init : Bool
  flashOpen : Bool
  malloc : Bool
  chunks : List ChunkAnswer
  finish : Bool
deriving DecidableEq, Repr

/-- The append loop: what was appended, if all of it was. -/
def appendChunks (mSize : Nat) (device : Nat → Byte) :
    List ChunkAnswer → Nat → Nat → Option (List Byte)
  | _, _, 0 => some []
  | [], _, _ + 1 => none
  | chunk :: chunks, addr, size + 1 =>
      let readSize := min (size + 1) otaBufSize
      if mSize < (addr + readSize) % 2 ^ 32 then none
      else if !chunk.read then none
      else if !chunk.append then none
      else
        (appendChunks mSize device chunks ((addr + readSize) % 2 ^ 32)
          (size + 1 - readSize)).map (load device addr readSize ++ ·)

section

variable (iop : ImageOtaParam) (getSize : Nat) (mem : FlashMem)
  (env : DigestEnv) (seq : ImageSeq) (value : List (BitVec 32))

/-- `get_size - bl_size - sizeof(ota_verify_data_t)`, a `uint32_t`. -/
def verifySize : BitVec 32 :=
  BitVec.ofNat 32 getSize - BitVec.ofNat 32 iop.blSize -
    BitVec.ofNat 32 otaVerifyDataSize

def otaVerifyImageAppend : Option (List Byte) :=
  if !env.flashOpen then none
  else if !env.malloc then none
  else
    appendChunks (platform.mSize (iop.flash seq)) (mem (iop.flash seq))
      env.chunks (iop.addr seq) (verifySize iop getSize).toNat

/-- `ota_verify_image_crc32` and the others, with a digest of so many words. -/
def otaVerifyImageDigest (algorithm : OtaDigest) (words : Nat) : OtaStatus :=
  if !env.init then .error
  else
    match otaVerifyImageAppend platform iop getSize mem env seq with
    | none => .error
    | some data =>
        if !env.finish then .error
        else if value.take words =
            (platform.digest algorithm getSize data).take words then .ok
        else .error

def otaVerifyImageNone : OtaStatus := .ok

def otaVerifyImageCrc32 : OtaStatus :=
  otaVerifyImageDigest platform iop getSize mem env seq value .crc32 1

def otaVerifyImageMd5 : OtaStatus :=
  otaVerifyImageDigest platform iop getSize mem env seq value .md5 4

def otaVerifyImageSha1 : OtaStatus :=
  otaVerifyImageDigest platform iop getSize mem env seq value .sha1 5

def otaVerifyImageSha256 : OtaStatus :=
  otaVerifyImageDigest platform iop getSize mem env seq value .sha256 8

/-- The `switch` over the algorithm. -/
def verifyBy (verify : OtaVerify) : OtaStatus :=
  match verify with
  | .none => otaVerifyImageNone
  | .digest .crc32 => otaVerifyImageCrc32 platform iop getSize mem env seq value
  | .digest .md5 => otaVerifyImageMd5 platform iop getSize mem env seq value
  | .digest .sha1 => otaVerifyImageSha1 platform iop getSize mem env seq value
  | .digest .sha256 =>
      otaVerifyImageSha256 platform iop getSize mem env seq value
  | .other => .error

end

/-- The configuration that is read behind `image_set_cfg`. -/
def imageSetCfg (answer : CfgAnswer) (cfg : ImageCfg)
    (old : Option ImageCfg) : Option ImageCfg :=
  match answer with
  | .done => some cfg
  | .kept => old
  | .lost left => left.val

/-- What a call comes to: the status, the configuration handed to
`image_set_cfg`, if it gets there, and the state behind it. -/
structure OtaReturn where
  status : OtaStatus
  setCfg : Option ImageCfg
  state : OtaState

/-- `value` may be `NULL`. -/
def otaVerifyImage (verify : OtaVerify) (value : Option (List (BitVec 32)))
    (env : DigestEnv) (answer : CfgAnswer) (state : OtaState) : OtaReturn :=
  let failed : OtaReturn := { status := .error, setCfg := none, state }
  if verify ≠ .none ∧ value = none then failed
  else
    let seq := otaGetUpdateSeq state.iop
    match state.iop with
    | none => failed
    | some iop =>
        if imageSeqNum ≤ seq.toNat then failed
        else if state.getSize = 0 then failed
        else if verifyBy platform iop state.getSize state.mem env seq
            (value.getD []) verify ≠ .ok then failed
        else
          let cfg : ImageCfg := { seq, state := .verified }
          { status :=
              match answer with
              | .done => .ok
              | _ => .error
            setCfg := some cfg
            state := { state with cfg := imageSetCfg answer cfg state.cfg } }

/-! ### Calls -/

inductive OtaCall where
  | init
  | deinit
  | getImage (protocol : OtaProtocol) (url : Option OtaEnv)
  | getVerifyData (env : VerifyDataEnv)
  | verifyImage (verify : OtaVerify) (value : Option (List (BitVec 32)))
      (env : DigestEnv) (answer : CfgAnswer)

def otaCall (state : OtaState) : OtaCall → OtaReturn
  | .init =>
      { status := .ok, setCfg := none, state := otaInit platform state }
  | .deinit => { status := .ok, setCfg := none, state := otaDeinit state }
  | .getImage protocol url =>
      let (status, state) := otaGetImage platform protocol url state
      { status, setCfg := none, state := { state with last := some status } }
  | .getVerifyData env =>
      { status := (otaGetVerifyData platform env state).1
        setCfg := none
        state }
  | .verifyImage verify value env answer =>
      otaVerifyImage platform verify value env answer state

def otaStep (state : OtaState) (call : OtaCall) : OtaState :=
  (otaCall platform state call).state

end

/-- Before the first call. -/
def OtaState.start (mem : FlashMem) (cfg : Option ImageCfg) : OtaState :=
  { iop := none, getSize := 0, mem, cfg, last := none, written := none }

end XR872.Ota
