/-
What a digest is fed.

The range of the digest is worked out from the number of bytes received, the
place of the verify data from the section headers. Where the verify data are
what was received last, the two agree. A download that is too small for them
makes the size wrap, and the length that CRC is announced is not the one it is
fed.
-/

import XR872.Ota.Commit
import XR872.Ota.SectionWalk

namespace XR872.Ota

open BitView
open Images
open Memories

structure AppendTrace where
  reads : List FlashRange
  fed : List Byte
  done : Bool
deriving DecidableEq, Repr

/-- The loop of `ota_verify_image_append_process`. -/
def appendTrace (mSize flash : Nat) (device : Nat → Byte) :
    List ChunkAnswer → Nat → Nat → AppendTrace
  | _, _, 0 => { reads := [], fed := [], done := true }
  | [], _, _ + 1 => { reads := [], fed := [], done := false }
  | chunk :: chunks, addr, size + 1 =>
      let readSize := min (size + 1) otaBufSize
      let range : FlashRange := { flash, addr, size := readSize }
      if mSize < (addr + readSize) % 2 ^ 32 then
        { reads := [], fed := [], done := false }
      else if !chunk.read then { reads := [range], fed := [], done := false }
      else if !chunk.append then
        { reads := [range], fed := load device addr readSize, done := false }
      else
        let rest := appendTrace mSize flash device chunks
          ((addr + readSize) % 2 ^ 32) (size + 1 - readSize)
        { reads := range :: rest.reads
          fed := load device addr readSize ++ rest.fed
          done := rest.done }

section

variable (platform : OtaPlatform)

/-- What `ota_verify_image_append` comes to, if `HAL_xxx_Init` is done. -/
def verifyTrace (iop : ImageOtaParam) (getSize : Nat) (mem : FlashMem)
    (env : DigestEnv) (seq : ImageSeq) : AppendTrace :=
  if !env.init || !env.flashOpen || !env.malloc then
    { reads := [], fed := [], done := false }
  else
    appendTrace (platform.mSize (iop.flash seq)) (iop.flash seq)
      (mem (iop.flash seq)) env.chunks (iop.addr seq)
      (verifySize iop getSize).toNat

/-- The length that `HAL_CRC_Init` is given. -/
def crcLength (getSize : Nat) : Nat := getSize

/-- What is promised of a digest of a download, for each behaviour of the device
and the engine. -/
structure DigestRange (state : OtaState) (algorithm : OtaDigest)
    (value : List (BitVec 32)) (env : DigestEnv) (answer : CfgAnswer) :
    Prop where
  /-- If the verify data are the last bytes received, the digest is fed up to
  them, and all of it unless something fails. -/
  whole : platform.iop.blSize + otaVerifyDataSize ≤ state.getSize →
    ∀ io fuel pos, verifyDataPosIn platform io state.mem platform.iop
        (otaGetUpdateSeq state.iop) fuel = some pos →
      pos.toNat + otaVerifyDataSize =
        platform.iop.addr (otaGetUpdateSeq state.iop) +
          (state.getSize - platform.iop.blSize) →
      let trace := verifyTrace platform platform.iop state.getSize state.mem env
        (otaGetUpdateSeq state.iop)
      let range := load (state.mem
        (platform.iop.flash (otaGetUpdateSeq state.iop)))
          (platform.iop.addr (otaGetUpdateSeq state.iop))
          (pos.toNat - platform.iop.addr (otaGetUpdateSeq state.iop))
      trace.fed <+: range ∧ (trace.done = true → trace.fed = range)
  /-- A smaller download fails, nothing is read outside of the image, and the
  size, if it is computed, has not wrapped. -/
  short : state.getSize < platform.iop.blSize + otaVerifyDataSize →
    (otaVerifyImage platform (.digest algorithm) (some value) env answer
        state).status = .error ∧
      (∀ range ∈ (verifyTrace platform platform.iop state.getSize state.mem env
          (otaGetUpdateSeq state.iop)).reads,
        range.Within (slotRange platform.iop (otaGetUpdateSeq state.iop))) ∧
      (env.init = true → (verifySize platform.iop state.getSize).toNat +
        platform.iop.blSize + otaVerifyDataSize = state.getSize)
  announced : algorithm = .crc32 →
    (verifyTrace platform platform.iop state.getSize state.mem env
        (otaGetUpdateSeq state.iop)).done = true →
      crcLength state.getSize = (verifyTrace platform platform.iop
        state.getSize state.mem env (otaGetUpdateSeq state.iop)).fed.length

/-! ### The append loop -/

section Loop

variable (mSize flash : Nat) (device : Nat → Byte)

theorem appendTrace_fed (small : mSize ≤ 2 ^ 28) (chunks : List ChunkAnswer)
    (addr size : Nat) (onDevice : addr + size ≤ mSize) :
    (appendTrace mSize flash device chunks addr size).fed <+:
        load device addr size ∧
      ((appendTrace mSize flash device chunks addr size).done = true →
        (appendTrace mSize flash device chunks addr size).fed =
          load device addr size) := by
  induction chunks generalizing addr size with
  | nil =>
      cases size with
      | zero => exact ⟨List.prefix_rfl, fun _ => rfl⟩
      | succ size => exact ⟨List.nil_prefix, nofun⟩
  | cons chunk chunks ih =>
      cases size with
      | zero => exact ⟨List.prefix_rfl, fun _ => rfl⟩
      | succ size =>
          have inside : (addr + min (size + 1) otaBufSize) % 2 ^ 32 =
              addr + min (size + 1) otaBufSize :=
            Nat.mod_eq_of_lt (by omega)
          have cut : load device addr (size + 1) =
              load device addr (min (size + 1) otaBufSize) ++
                load device (addr + min (size + 1) otaBufSize)
                  (size + 1 - min (size + 1) otaBufSize) := by
            rw [← load_append]
            congr 1
            omega
          rw [appendTrace, inside, cut]
          dsimp only
          split
          · exact ⟨List.nil_prefix, nofun⟩
          · split
            · exact ⟨List.nil_prefix, nofun⟩
            · split
              · exact ⟨List.prefix_append _ _, nofun⟩
              · obtain ⟨before, whole⟩ :=
                  ih (addr + min (size + 1) otaBufSize)
                    (size + 1 - min (size + 1) otaBufSize) (by omega)
                refine ⟨(List.prefix_append_right_inj _).mpr before, ?_⟩
                intro done
                dsimp only
                rw [whole done]

theorem appendTrace_done (small : mSize ≤ 2 ^ 28) (passes addr size : Nat)
    (enough : size ≤ passes) (onDevice : addr + size ≤ mSize) :
    (appendTrace mSize flash device
      (List.replicate passes { read := true, append := true })
      addr size).done = true := by
  induction passes generalizing addr size with
  | zero =>
      rw [Nat.le_zero.mp enough]
      rfl
  | succ passes ih =>
      cases size with
      | zero => rfl
      | succ size =>
          have buffer : otaBufSize = 2048 := rfl
          have inside : (addr + min (size + 1) otaBufSize) % 2 ^ 32 =
              addr + min (size + 1) otaBufSize :=
            Nat.mod_eq_of_lt (by omega)
          rw [List.replicate_succ, appendTrace, inside]
          dsimp only
          rw [if_neg (by omega), if_neg nofun, if_neg nofun]
          exact ih _ _ (by omega) (by omega)

end Loop

/-! ### Completed downloads -/

theorem verifySize_exact (iop : ImageOtaParam) (getSize : Nat)
    (fits : iop.blSize + otaVerifyDataSize ≤ getSize)
    (sized : getSize < 2 ^ 32) :
    (verifySize iop getSize).toNat =
      getSize - iop.blSize - otaVerifyDataSize := by
  have data : otaVerifyDataSize = 44 := rfl
  unfold verifySize
  rw [BitVec.toNat_sub, BitVec.toNat_sub, BitVec.toNat_ofNat,
    BitVec.toNat_ofNat, BitVec.toNat_ofNat, data]
  rw [data] at fits
  omega

structure Completed (state : OtaState) : Prop where
  bound : state.iop = some platform.iop
  skipped : platform.iop.blSize ≤ state.getSize
  fits : state.getSize ≤ platform.iop.blSize + platform.iop.imgMaxSize

variable {platform}

theorem completed_of_ok (protocol : OtaProtocol) (url : Option OtaEnv)
    (before state : OtaState)
    (download : otaGetImage platform protocol url before = (.ok, state)) :
    Completed platform state := by
  rcases otaGetImage_cases platform protocol url before with
    same | same | ⟨env, _, _, below, same⟩
  · rw [same] at download
    cases download
  · rw [same] at download
    cases download
  · rw [same] at download
    injection download with ok isState
    have sized := (otaGetUpdateSeq_policy platform.iop below).1
    obtain ⟨skipped, fits, _⟩ := otaUpdateImageProcess_ok platform.iop _ env
      _ 0 before.mem platform.check (by omega) ok
    rw [← isState]
    exact ⟨rfl, skipped, fits⟩

/-- A device and an engine that never fail. -/
def steadyEnv (passes : Nat) : DigestEnv :=
  { init := true
    flashOpen := true
    malloc := true
    chunks := List.replicate passes { read := true, append := true }
    finish := true }

namespace Completed

variable {state : OtaState} (completed : Completed platform state)

include completed

theorem size (fits : platform.iop.blSize + otaVerifyDataSize ≤ state.getSize) :
    (verifySize platform.iop state.getSize).toNat =
      state.getSize - platform.iop.blSize - otaVerifyDataSize := by
  have small := platform.iop.sized
  have within := completed.fits
  exact verifySize_exact platform.iop state.getSize fits (by omega)

theorem fed (fits : platform.iop.blSize + otaVerifyDataSize ≤ state.getSize)
    (env : DigestEnv) (seq : ImageSeq) :
    let trace := verifyTrace platform platform.iop state.getSize state.mem env seq
    let range := load (state.mem (platform.iop.flash seq))
      (platform.iop.addr seq)
      (state.getSize - platform.iop.blSize - otaVerifyDataSize)
    trace.fed <+: range ∧ (trace.done = true → trace.fed = range) := by
  have onDevice := platform.onDevice seq
  have within := completed.fits
  unfold verifyTrace
  rw [completed.size fits]
  dsimp only
  split
  · exact ⟨List.nil_prefix, nofun⟩
  · exact appendTrace_fed _ _ _ (platform.small _) _ _ _ (by omega)

theorem done (fits : platform.iop.blSize + otaVerifyDataSize ≤ state.getSize)
    (seq : ImageSeq) :
    (verifyTrace platform platform.iop state.getSize state.mem
      (steadyEnv state.getSize) seq).done = true := by
  have onDevice := platform.onDevice seq
  have within := completed.fits
  unfold verifyTrace steadyEnv
  rw [completed.size fits]
  exact appendTrace_done _ _ _ (platform.small _) _ _ _ (by omega) (by omega)

end Completed

/-- The digests of a completed download are as promised exactly if the algorithm
is not CRC and the download has room for the verify data. -/
theorem digestRange_iff (protocol : OtaProtocol) (url : Option OtaEnv)
    (before state : OtaState)
    (download : otaGetImage platform protocol url before = (.ok, state))
    (algorithm : OtaDigest) :
    (∀ value env answer,
        DigestRange platform state algorithm value env answer) ↔
      algorithm ≠ .crc32 ∧
        platform.iop.blSize + otaVerifyDataSize ≤ state.getSize := by
  have completed := completed_of_ok protocol url before state download
  have data : otaVerifyDataSize = 44 := rfl
  constructor
  · intro promised
    have steady := promised [] (steadyEnv state.getSize) .done
    have fits : platform.iop.blSize + otaVerifyDataSize ≤ state.getSize := by
      by_contra small
      obtain ⟨_, _, unwrapped⟩ := steady.short (by omega)
      have size := unwrapped rfl
      omega
    refine ⟨?_, fits⟩
    intro crc
    -- fed without what is in front of the image and behind it
    have announced := steady.announced crc (completed.done fits _)
    obtain ⟨_, all⟩ :=
      completed.fed fits (steadyEnv state.getSize) (otaGetUpdateSeq state.iop)
    rw [all (completed.done fits _), length_load] at announced
    unfold crcLength at announced
    omega
  · rintro ⟨noCrc, fits⟩ value env answer
    exact {
      whole := by
        intro _ io fuel pos _ last
        have fed := completed.fed fits env (otaGetUpdateSeq state.iop)
        have length : pos.toNat -
            platform.iop.addr (otaGetUpdateSeq state.iop) =
              state.getSize - platform.iop.blSize - otaVerifyDataSize := by
          omega
        dsimp only
        rw [length]
        exact fed
      short := fun small => absurd fits (by omega)
      announced := fun crc => absurd crc noCrc }

end

/-! ### A whole image, and one that is too small -/

/-- Slots for a section header and the verify data. -/
def headerSlots : ImageOtaParam where
  imgMaxSize := 108
  blSize := 1
  runningSeq := 0
  flash := fun _ => 0
  addr := fun seq => 1 + 108 * seq.toNat
  sized := Nat.lt_of_sub_pos (Nat.succ_pos _)
  placed := by
    intro seq
    have small := seq.isLt
    omega

def headerPlatform : OtaPlatform where
  iop := headerSlots
  mSize := fun _ => 0x10000
  checkHeader := fun _ => true
  check := fun _ _ => true
  digest := fun _ _ _ => []
  small := fun _ => Nat.le_of_sub_eq_zero rfl
  onDevice := by
    intro seq
    have small := seq.isLt
    change 1 + 108 * seq.toNat + 108 ≤ 0x10000
    omega

/-- A bootloader of one byte, and so many bytes of an image. -/
def downloadEnv (count : Nat) : OtaEnv where
  stream := List.replicate (1 + count) 0
  erase := { done := true, left := List.replicate 108 255 }
  malloc := true
  init := .ok
  flashOpen := true
  turns := [
    { get := .piece 1 false, write := { done := true, left := [] } },
    { get := .piece count true, write := { done := true, left := [] } }]

/-- The state behind the download. -/
def downloaded (count : Nat) : OtaState :=
  (otaGetImage headerPlatform .file (some (downloadEnv count))
    (.start (fun _ _ => 0) none)).2

/-- CRC is announced 109 bytes and fed 64. Of an image of 40 bytes, more than
the slot is read. -/
theorem digestRange_crc :
    (otaGetImage headerPlatform .file (some (downloadEnv 108))
        (.start (fun _ _ => 0) none)).1 = .ok ∧
      (¬ ∀ value env answer,
        DigestRange headerPlatform (downloaded 108) .crc32 value env answer) ∧
      (otaGetImage headerPlatform .file (some (downloadEnv 40))
        (.start (fun _ _ => 0) none)).1 = .ok ∧
      ¬ ∀ range ∈ (verifyTrace headerPlatform headerSlots
          (downloaded 40).getSize (downloaded 40).mem (steadyEnv 1) 1).reads,
        range.Within (slotRange headerSlots 1) := by
  refine ⟨rfl, ?_, rfl, ?_⟩
  · intro promised
    have announced := (promised [] (steadyEnv 1) .done).announced rfl rfl
    cases announced
  · intro within
    have first := within { flash := 0, addr := 109, size := 2048 }
      (by decide)
    exact absurd first.2.2 (by decide)

theorem digestRange_md5 :
    DigestRange headerPlatform (downloaded 108) .md5 [] (steadyEnv 108) .done :=
  (digestRange_iff .file (some (downloadEnv 108))
    (.start (fun _ _ => 0) none) (downloaded 108) rfl .md5).mpr
      ⟨nofun, Nat.le_of_sub_eq_zero rfl⟩ [] (steadyEnv 108) .done

end XR872.Ota
