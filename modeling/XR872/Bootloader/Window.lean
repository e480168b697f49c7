/-
Where a section may be written, and when its body counts as checked.
-/

import XR872.Bootloader.Load
import XR872.Library.Packing

namespace XR872.Bootloader

open BitView
open Checksums
open Images
open Memories

variable {σ : Type} (env : BlEnv σ) (sh : SectionHeader)

/-- `sh.attribute & IMAGE_ATTR_FLAG_COMPRESS`. -/
def Compressed : Prop := sh.attributes &&& imageAttrFlagCompress ≠ 0

instance : Decidable (Compressed sh) := inferInstanceAs (Decidable (_ ≠ _))

/-- A load writes between the load address and the bootloader's RAM only, the
room it hands to the decoder is the distance of the two, and a compressed body
that is accepted was read and checked to its end. -/
structure LoadsInside (maxAddr : BitVec 32) (result : BlLoad) : Prop where
  window : ∀ place ∈ result.written.map Prod.fst,
    sh.loadAddr ≤ place ∧ place < maxAddr
  plain : ¬ Compressed sh → result.ret ≠ some .noSec →
    result.ret ≠ some .tooBig →
      sh.loadAddr.toNat + sh.bodyLen.toNat ≤ maxAddr.toNat
  outSize : ∀ size ∈ result.outSize,
    (size.toNat : Int) = maxAddr.toNat - sh.loadAddr.toNat
  checked : Compressed sh → result.ret = some .ok →
    result.unread = 0 ∧
      sh.dataChksum + env.rom.checksum
        (load (env.rom.body sh.id) 0 sh.bodyLen.toNat) = 0xFFFF

/-- The decoder does not end the stream, in a pass that accepts it, before the
body is read to its end. -/
def EndsRead (outSize : Nat) : Nat → BlDec σ → Prop
  | 0, _ => True
  | passes + 1, dec =>
      match decompressPass env sh outSize dec with
      | .next dec => EndsRead outSize passes dec
      | .stop ret dec => ret = 0 → dec.left = 0

/-- When a header is loaded as it should: the sum that is compared does not
wrap around, nor the difference that is handed on, and the stream ends in the
last piece of the body. -/
structure Sane (maxAddr : BitVec 32) : Prop where
  plain : ¬ Compressed sh → sh.bodyLen ≠ 0 →
    sh.loadAddr + sh.bodyLen ≤ maxAddr →
      sh.loadAddr.toNat + sh.bodyLen.toNat < 2 ^ 32
  room : Compressed sh → env.malloc = true → env.xz.init.isSome = true →
    sh.loadAddr ≤ maxAddr
  ends : Compressed sh → env.malloc = true →
    ∀ decoder ∈ env.xz.init, ∀ passes,
      EndsRead env sh (maxAddr - sh.loadAddr).toNat passes (.start sh decoder)

/-! ### The loop -/

theorem place_stored (loadAddr : BitVec 32) (pos : Nat) (data : List Byte)
    (place : BitVec 32)
    (member : place ∈ (stored loadAddr pos data).map Prod.fst) :
    ∃ index, pos ≤ index ∧ index < pos + data.length ∧
      place = loadAddr + BitVec.ofNat 32 index := by
  unfold stored at member
  rw [List.map_map] at member
  obtain ⟨⟨byte, index⟩, inside, rfl⟩ := List.mem_map.mp member
  obtain ⟨behind, before, _⟩ := List.mem_zipIdx inside
  exact ⟨index, behind, before, rfl⟩

/-- What every pass keeps: the output stays in its room, every byte is put
behind the load address by its position, and the checksum is that of what was
read, cut at an even place or at the end. -/
structure Taken (outSize : Nat) (dec : BlDec σ) : Prop where
  inside : dec.outPos ≤ outSize
  places : ∀ place ∈ dec.written.map Prod.fst,
    ∃ index, index < dec.outPos ∧
      place = sh.loadAddr + BitVec.ofNat 32 index
  summed : dec.chksum = sh.dataChksum +
    env.rom.checksum (load (env.rom.body sh.id) 0 dec.offset)
  counted : dec.offset + dec.left = sh.bodyLen.toNat
  even : dec.left ≠ 0 → 2 ∣ dec.offset

variable {env sh}

theorem taken_start (additive : Additive 2 env.rom.checksum)
    (outSize : Nat) (decoder : σ) :
    Taken env sh outSize (.start sh decoder) := by
  refine ⟨Nat.zero_le _, ?_, ?_, Nat.zero_add _, fun _ => Nat.dvd_zero 2⟩
  · intro place member
    cases member
  · change sh.dataChksum = _ + env.rom.checksum []
    rw [additive_nil 2 _ additive]
    exact (add_zero _).symm

theorem taken_refill (additive : Additive 2 env.rom.checksum) (outSize : Nat)
    (dec full : BlDec σ) (taken : Taken env sh outSize dec)
    (filled : refill env sh dec = some full) : Taken env sh outSize full := by
  unfold refill at filled
  split at filled
  · cases filled
    exact taken
  · split at filled
    · cases filled
    · rename_i some
      dsimp only at filled
      split at filled
      · cases filled
      · have even := taken.even some
        have counted := taken.counted
        cases filled
        refine ⟨taken.inside, taken.places, ?_, ?_, ?_⟩
        · have long : 2 ∣ (load (env.rom.body sh.id) 0 dec.offset).length := by
            rw [length_load]
            exact even
          dsimp only
          rw [load_append, Nat.zero_add, additive _ _ long, taken.summed,
            add_assoc]
        · dsimp only
          omega
        · dsimp only
          unfold blDecBinInbufSize
          intro more
          omega

def BlPass.dec : BlPass σ → BlDec σ
  | .next dec => dec
  | .stop _ dec => dec

theorem taken_pass (additive : Additive 2 env.rom.checksum) (outSize : Nat)
    (dec : BlDec σ) (taken : Taken env sh outSize dec) :
    Taken env sh outSize (decompressPass env sh outSize dec).dec := by
  unfold decompressPass
  cases filled : refill env sh dec with
  | none => exact taken
  | some full =>
      have kept := taken_refill additive outSize dec full taken filled
      have fits := (env.xz.run full.decoder full.input
        (outSize - full.outPos)).fits
      have inside := kept.inside
      have next : Taken env sh outSize { full with
          input := full.input.drop (env.xz.run full.decoder full.input
            (outSize - full.outPos)).inTaken
          outPos := full.outPos + (env.xz.run full.decoder full.input
            (outSize - full.outPos)).out.length
          written := full.written ++ stored sh.loadAddr full.outPos
            (env.xz.run full.decoder full.input (outSize - full.outPos)).out
          decoder := (env.xz.run full.decoder full.input
            (outSize - full.outPos)).decoder } := by
        refine ⟨?_, ?_, kept.summed, kept.counted, kept.even⟩
        · dsimp only
          omega
        · intro place member
          rw [List.map_append] at member
          rcases List.mem_append.mp member with old | new
          · obtain ⟨index, before, same⟩ := kept.places place old
            exact ⟨index, Nat.lt_of_lt_of_le before (Nat.le_add_right _ _),
              same⟩
          · obtain ⟨index, _, before, same⟩ := place_stored _ _ _ _ new
            exact ⟨index, before, same⟩
      dsimp only
      split
      · exact next
      · split
        · exact next
        · split <;> exact next
        · exact next

theorem chksum_of_stop (outSize : Nat) (dec last : BlDec σ)
    (stopped : decompressPass env sh outSize dec = .stop 0 last) :
    last.chksum = 0xFFFF := by
  unfold decompressPass at stopped
  split at stopped
  · cases stopped
  · dsimp only at stopped
    split at stopped
    · cases stopped
    · split at stopped
      · cases stopped
      · split at stopped
        · cases stopped
        · rename_i sound
          injection stopped with _ same
          rw [← same]
          exact not_not.mp sound
      · cases stopped

theorem taken_loop (additive : Additive 2 env.rom.checksum) (outSize passes : Nat)
    (dec : BlDec σ) (taken : Taken env sh outSize dec) :
    Taken env sh outSize (decompressLoop env sh outSize passes dec).2 := by
  induction passes generalizing dec with
  | zero => exact taken
  | succ passes ih =>
      have kept := taken_pass additive outSize dec taken
      unfold decompressLoop
      cases pass : decompressPass env sh outSize dec with
      | next next =>
          rw [pass] at kept
          exact ih next kept
      | stop ret last =>
          rw [pass] at kept
          exact kept

theorem chksum_loop (outSize passes : Nat) (dec : BlDec σ)
    (ended : (decompressLoop env sh outSize passes dec).1 = some 0) :
    (decompressLoop env sh outSize passes dec).2.chksum = 0xFFFF := by
  induction passes generalizing dec with
  | zero => cases ended
  | succ passes ih =>
      unfold decompressLoop at ended ⊢
      cases pass : decompressPass env sh outSize dec with
      | next next =>
          rw [pass] at ended
          exact ih next ended
      | stop ret last =>
          rw [pass] at ended
          have zero : ret = 0 := Option.some.inj ended
          rw [zero] at pass
          exact chksum_of_stop outSize dec last pass

/-- The stream is never ended early exactly if a loop that succeeds has nothing
left to read. -/
theorem endsRead_iff (outSize passes : Nat) (dec : BlDec σ) :
    EndsRead env sh outSize passes dec ↔
      ((decompressLoop env sh outSize passes dec).1 = some 0 →
        (decompressLoop env sh outSize passes dec).2.left = 0) := by
  induction passes generalizing dec with
  | zero => exact iff_of_true trivial fun ended => by cases ended
  | succ passes ih =>
      unfold EndsRead decompressLoop
      cases pass : decompressPass env sh outSize dec with
      | next next => exact ih next
      | stop ret last =>
          dsimp only
          rw [Option.some_inj]

/-! ### The two paths -/

/-- A byte put less than `size` behind the load address is in the window. -/
theorem inside_window (loadAddr maxAddr place : BitVec 32) (index size : Nat)
    (room : loadAddr.toNat + size ≤ maxAddr.toNat) (before : index < size)
    (same : place = loadAddr + BitVec.ofNat 32 index) :
    loadAddr ≤ place ∧ place < maxAddr := by
  have bound := maxAddr.isLt
  have sum : place.toNat = loadAddr.toNat + index := by
    rw [same, BitVec.toNat_add, BitVec.toNat_ofNat, Nat.add_mod_mod,
      Nat.mod_eq_of_lt (by omega)]
  rw [BitVec.le_def, BitVec.lt_def]
  omega

theorem loadsInside_failed (maxAddr : BitVec 32) (ret : BlLoadBin)
    (bad : ret ≠ .ok)
    (cause : ¬ Compressed sh → ret = .noSec ∨ ret = .tooBig) :
    LoadsInside env sh maxAddr (.failed ret) := by
  refine ⟨?_, ?_, ?_, ?_⟩
  · intro place member
    cases member
  · intro plain notNone notBig
    rcases cause plain with rfl | rfl
    · exact absurd rfl notNone
    · exact absurd rfl notBig
  · intro size member
    cases member
  · intro _ ok
    exact absurd (Option.some.inj ok) bad

theorem loadsInside_plain_iff (id maxAddr : BitVec 32)
    (plain : ¬ Compressed sh) :
    LoadsInside env sh maxAddr (blLoadPlain env id sh maxAddr) ↔
      (sh.bodyLen ≠ 0 → sh.loadAddr + sh.bodyLen ≤ maxAddr →
        sh.loadAddr.toNat + sh.bodyLen.toNat < 2 ^ 32) := by
  unfold blLoadPlain
  by_cases empty : sh.bodyLen = 0
  · rw [if_pos empty]
    exact iff_of_true
      (loadsInside_failed maxAddr .noSec (by decide) fun _ => .inl rfl)
      fun some => absurd empty some
  · rw [if_neg empty]
    by_cases big : maxAddr < sh.loadAddr + sh.bodyLen
    · rw [if_pos big]
      refine iff_of_true
        (loadsInside_failed maxAddr .tooBig (by decide) fun _ => .inr rfl) ?_
      intro _ fits
      exact absurd big (BitVec.not_lt.mpr fits)
    · rw [if_neg big]
      have fits := BitVec.not_lt.mp big
      have bound := maxAddr.isLt
      have sum := BitVec.toNat_add sh.loadAddr sh.bodyLen
      rw [BitVec.le_def] at fits
      -- whatever comes of the read and the check, the same was written
      have written : ∀ ret entry,
          ret ≠ some BlLoadBin.noSec → ret ≠ some .tooBig →
          (LoadsInside env sh maxAddr
            { ret
              written := stored sh.loadAddr 0 (load (env.rom.body id) 0
                (min (env.rom.bodyRead id 0 sh.bodyLen.toNat)
                  sh.bodyLen.toNat))
              outSize := none
              unread := 0
              entry } ↔
            (sh.bodyLen ≠ 0 → sh.loadAddr + sh.bodyLen ≤ maxAddr →
              sh.loadAddr.toNat + sh.bodyLen.toNat < 2 ^ 32)) := by
        intro ret entry notNone notBig
        constructor
        · intro right _ _
          have small := right.plain plain notNone notBig
          omega
        · intro narrow
          have small := narrow empty (BitVec.not_lt.mp big)
          rw [Nat.mod_eq_of_lt small] at sum
          refine ⟨?_, ?_, ?_, fun compressed => absurd compressed plain⟩
          · intro place member
            obtain ⟨index, _, before, same⟩ := place_stored _ _ _ _ member
            rw [length_load] at before
            exact inside_window _ _ _ index sh.bodyLen.toNat (by omega)
              (by omega) same
          · intro _ _ _
            omega
          · intro size member
            cases member
      dsimp only
      split
      · exact written _ _ (by decide) (by decide)
      · split
        · exact written _ _ (by decide) (by decide)
        · exact written _ _ (by decide) (by decide)

theorem sub_exact_iff (maxAddr loadAddr : BitVec 32) :
    ((maxAddr - loadAddr).toNat : Int) = maxAddr.toNat - loadAddr.toNat ↔
      loadAddr ≤ maxAddr := by
  have low := loadAddr.isLt
  have high := maxAddr.isLt
  rw [BitVec.toNat_sub, BitVec.le_def]
  omega

theorem loadsInside_compressed_iff (additive : Additive 2 env.rom.checksum)
    (maxAddr : BitVec 32) (compressed : Compressed sh) :
    (∀ passes, LoadsInside env sh maxAddr
        (blLoadCompressed env sh maxAddr passes)) ↔
      (env.malloc = true → env.xz.init.isSome = true →
        sh.loadAddr ≤ maxAddr) ∧
      (env.malloc = true → ∀ decoder ∈ env.xz.init, ∀ passes,
        EndsRead env sh (maxAddr - sh.loadAddr).toNat passes
          (.start sh decoder)) := by
  have failed : LoadsInside env sh maxAddr (.failed .invalid) :=
    loadsInside_failed maxAddr .invalid (by decide)
      fun plain => absurd compressed plain
  unfold blLoadCompressed
  cases memory : env.malloc with
  | false =>
      exact iff_of_true (fun _ => failed)
        ⟨fun none => (by cases none), fun none => (by cases none)⟩
  | true =>
      cases made : env.xz.init with
      | none =>
          exact iff_of_true (fun _ => failed)
            ⟨fun _ none => (by cases none), fun _ _ none => (by cases none)⟩
      | some decoder =>
          constructor
          · intro right
            refine ⟨fun _ _ => ?_, ?_⟩
            · have exact_ := (right 0).outSize (maxAddr - sh.loadAddr) rfl
              exact (sub_exact_iff maxAddr sh.loadAddr).mp exact_
            · intro _ other same passes
              cases same
              rw [endsRead_iff]
              intro ended
              refine ((right passes).checked compressed ?_).1
              change Option.map _ (decompressLoop env sh _ passes _).1 = _
              rw [ended]
              rfl
          · rintro ⟨room, ends⟩ passes
            have window := room rfl rfl
            have size := (sub_exact_iff maxAddr sh.loadAddr).mpr window
            have taken := taken_loop additive (maxAddr - sh.loadAddr).toNat
              passes (.start sh decoder) (taken_start additive _ decoder)
            refine ⟨?_, fun plain => absurd compressed plain, ?_, ?_⟩
            · intro place member
              obtain ⟨index, before, same⟩ := taken.places place member
              have inside := taken.inside
              rw [BitVec.le_def] at window
              exact inside_window _ _ _ index (maxAddr - sh.loadAddr).toNat
                (by omega) (by omega) same
            · intro other same
              cases same
              exact size
            · intro _ ok
              have ended : (decompressLoop env sh (maxAddr - sh.loadAddr).toNat
                  passes (.start sh decoder)).1 = some 0 := by
                change Option.map _ (decompressLoop env sh _ passes _).1 = _
                  at ok
                obtain ⟨ret, returned, zero⟩ := Option.map_eq_some_iff.mp ok
                split at zero
                · cases zero
                · rename_i ok
                  rw [returned, not_not.mp ok]
              have none := (endsRead_iff _ passes _).mp
                (ends rfl decoder rfl passes) ended
              have sum := chksum_loop _ passes _ ended
              have counted := taken.counted
              rw [none, Nat.add_zero] at counted
              rw [taken.summed, counted] at sum
              exact ⟨none, sum⟩

theorem blLoadBinById_eq (env : BlEnv σ) (id maxAddr : BitVec 32)
    (passes : Nat) (read : env.rom.headerRead id = imageHeaderSize)
    (valid : env.rom.checkHeader (env.rom.header id) = true) :
    blLoadBinById env id maxAddr passes =
      if Compressed (env.rom.header id) then
        blLoadCompressed env (env.rom.header id) maxAddr passes
      else blLoadPlain env id (env.rom.header id) maxAddr := by
  unfold blLoadBinById
  dsimp only
  rw [if_neg (not_not_intro read), valid]
  rfl

/-- A section is loaded inside its window, and only with a body that was
checked whole, exactly if its header and the decoder are sane. -/
theorem loadsInside_iff (env : BlEnv σ) (id maxAddr : BitVec 32)
    (read : env.rom.headerRead id = imageHeaderSize)
    (valid : env.rom.checkHeader (env.rom.header id) = true)
    (additive : Additive 2 env.rom.checksum) :
    (∀ passes, LoadsInside env (env.rom.header id) maxAddr
        (blLoadBinById env id maxAddr passes)) ↔
      Sane env (env.rom.header id) maxAddr := by
  by_cases compressed : Compressed (env.rom.header id)
  · have same : ∀ passes, blLoadBinById env id maxAddr passes =
        blLoadCompressed env (env.rom.header id) maxAddr passes := by
      intro passes
      rw [blLoadBinById_eq env id maxAddr passes read valid, if_pos compressed]
    simp only [same]
    rw [loadsInside_compressed_iff additive maxAddr compressed]
    constructor
    · rintro ⟨room, ends⟩
      exact ⟨fun plain => absurd compressed plain, fun _ => room,
        fun _ => ends⟩
    · intro sane
      exact ⟨sane.room compressed, sane.ends compressed⟩
  · have same : ∀ passes, blLoadBinById env id maxAddr passes =
        blLoadPlain env id (env.rom.header id) maxAddr := by
      intro passes
      rw [blLoadBinById_eq env id maxAddr passes read valid,
        if_neg compressed]
    simp only [same, forall_const]
    rw [loadsInside_plain_iff id maxAddr compressed]
    constructor
    · intro narrow
      exact ⟨fun _ => narrow, fun other => absurd other compressed,
        fun other => absurd other compressed⟩
    · intro sane
      exact sane.plain compressed

/-- A flash with one section, a plain body of zeros. -/
def zeroSection (loadAddr bodyLen : BitVec 32) : BlEnv Unit :=
  { rom := {
      headerRead := fun _ => imageHeaderSize
      header := fun id => {
        magicNumber := 0x48495741, version := 0, headerChksum := 0
        dataChksum := 0xFFFF, dataSize := bodyLen, loadAddr
        entry := loadAddr, bodyLen, attributes := 0, nextAddr := 0xFFFFFFFF
        id, priv := List.replicate 6 0 }
      bodyRead := fun _ _ size => size
      body := fun _ _ => 0
      checkHeader := fun _ => true
      checkData := fun sh data => sh.dataChksum + wordSum data = 0xFFFF
      checksum := wordSum }
    malloc := true
    xz := {
      init := none
      run := fun _ _ _ => {
        ret := .error 0, decoder := (), inTaken := 0
        within := Nat.zero_le _, out := [], fits := Nat.zero_le _ } } }

theorem zeroSection_inside :
    (∀ passes, LoadsInside (zeroSection 0x100 4)
        ((zeroSection 0x100 4).rom.header imageAppId) 0x200
        (blLoadBinById (zeroSection 0x100 4) imageAppId 0x200 passes)) ↔
      Sane (zeroSection 0x100 4)
        ((zeroSection 0x100 4).rom.header imageAppId) 0x200 :=
  loadsInside_iff (zeroSection 0x100 4) imageAppId 0x200 rfl rfl
    wordSum_additive

/-- Two bytes for the last address there is: the end wraps around to 1, and the
first of them is written far behind the window. -/
theorem lastAddress_outside :
    ¬ ∀ passes, LoadsInside (zeroSection 0xFFFFFFFF 2)
        ((zeroSection 0xFFFFFFFF 2).rom.header imageAppId) 0x200000
        (blLoadBinById (zeroSection 0xFFFFFFFF 2) imageAppId 0x200000
          passes) := by
  intro inside
  have window := (inside 0).window 0xFFFFFFFF (by decide)
  exact absurd window.2 (by decide)

end XR872.Bootloader
