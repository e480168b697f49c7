/-
The walk over the sections in flash.

`ota_get_verify_data_pos` reads a header and goes where its `next_addr` says,
from the bootloader into the image that was downloaded. Nothing keeps a section
from leading back to one that was seen.
-/

import XR872.Library.Walk
import XR872.Ota.Service

namespace XR872.Ota

open BitView
open Bootloader (imageInvalidAddr)
open Images
open Memories
open Relation
open Walks

def decodeHeader (bytes : List Byte) : SectionHeader :=
  let word (offset : Nat) : BitVec 32 := ofBytes 32 ((bytes.drop offset).take 4)
  { magicNumber := word 0
    version := word 4
    headerChksum := ofBytes 16 ((bytes.drop 8).take 2)
    dataChksum := ofBytes 16 ((bytes.drop 10).take 2)
    dataSize := word 12
    loadAddr := word 16
    entry := word 20
    bodyLen := word 24
    attributes := word 28
    nextAddr := word 32
    id := word 36
    priv := (List.range 6).map fun index => word (40 + 4 * index) }

/-- `HAL_Flash_Open` of a device, and whether the chip reads from an address. -/
structure FlashIo where
  opens : Nat → Bool
  reads : Nat → BitVec 32 → Bool

/-- `HAL_Flash_Read`: refused for no data or behind the device's end, whose sum
is a `uint32_t`. -/
def halFlashRead (io : FlashIo) (mSize : Nat → Nat) (mem : FlashMem)
    (flash : Nat) (addr : BitVec 32) (size : Nat) : Option (List Byte) :=
  if size = 0 ∨ mSize flash < (addr.toNat + size) % 2 ^ 32 then none
  else if !io.reads flash addr then none
  else some (load (mem flash) addr.toNat size)

section

variable (platform : OtaPlatform) (io : FlashIo) (mem : FlashMem)
  (iop : ImageOtaParam) (seq : ImageSeq)

def headerAt (place : Nat × BitVec 32) : Option SectionHeader :=
  (halFlashRead io platform.mSize mem place.1 place.2 imageHeaderSize).map
    decodeHeader

/-- One turn of the loop, from a flash and an address there. -/
def sectionTurn (place : Nat × BitVec 32) : Nat × BitVec 32 ⊕ BitVec 32 :=
  match headerAt platform io mem place with
  | none => .inr 0
  | some sh =>
      if !platform.checkHeader sh then .inr 0
      else if sh.nextAddr = imageInvalidAddr then
        .inr (place.2 + BitVec.ofNat 32 imageHeaderSize + sh.dataSize)
      else
        .inl (iop.flash seq, BitVec.ofNat 32 (iop.addr seq) + sh.nextAddr -
          BitVec.ofNat 32 iop.blSize)

/-- `IMG_BL_FLASH` and `IMG_BL_ADDR`. -/
def blPlace : Nat × BitVec 32 :=
  (iop.flash 0, BitVec.ofNat 32 (iop.addr 0) - BitVec.ofNat 32 iop.blSize)

/-- `ota_get_verify_data_pos`, for at most so many turns. -/
def verifyDataPosIn (fuel : Nat) : Option (BitVec 32) :=
  if imageSeqNum ≤ seq.toNat then some 0
  else if !io.opens (iop.flash 0) then some 0
  else walk (sectionTurn platform io mem iop seq) fuel (blPlace iop)

/-! ### What the walk returns -/

/-- The end of a section that is the last one. -/
def LastEnd (pos : BitVec 32) : Prop :=
  ∃ place sh, headerAt platform io mem place = some sh ∧
    platform.checkHeader sh = true ∧ sh.nextAddr = imageInvalidAddr ∧
    pos = place.2 + BitVec.ofNat 32 imageHeaderSize + sh.dataSize

variable {platform io mem iop seq}

theorem sectionTurn_done (place : Nat × BitVec 32) (pos : BitVec 32)
    (done : sectionTurn platform io mem iop seq place = .inr pos) :
    pos = 0 ∨ LastEnd platform io mem pos := by
  unfold sectionTurn at done
  cases read : headerAt platform io mem place with
  | none =>
      rw [read] at done
      exact Or.inl (Sum.inr.inj done).symm
  | some sh =>
      rw [read] at done
      dsimp only at done
      by_cases valid : platform.checkHeader sh = true
      · rw [valid] at done
        by_cases last : sh.nextAddr = imageInvalidAddr
        · rw [if_pos last] at done
          exact Or.inr ⟨place, sh, read, valid, last, (Sum.inr.inj done).symm⟩
        · rw [if_neg last] at done
          cases done
      · rw [if_pos (by simpa using valid)] at done
        exact Or.inl (Sum.inr.inj done).symm

theorem sectionTurn_leads (place next : Nat × BitVec 32)
    (leads : Leads (sectionTurn platform io mem iop seq) place next) :
    next.1 = iop.flash seq := by
  unfold Leads sectionTurn at leads
  split at leads
  · cases leads
  · split at leads
    · cases leads
    · split at leads
      · cases leads
      · cases leads
        rfl

theorem places_finite (start : Nat × BitVec 32) :
    {place | ReflTransGen (Leads (sectionTurn platform io mem iop seq)) start
      place}.Finite := by
  refine Set.Finite.subset ((Set.finite_singleton start).union
    (Set.finite_range fun addr : BitVec 32 => (iop.flash seq, addr))) ?_
  intro place path
  cases path.cases_tail with
  | inl same => exact Or.inl same
  | inr leads =>
      obtain ⟨_, _, leads⟩ := leads
      exact Or.inr ⟨place.2, Prod.ext (sectionTurn_leads _ _ leads).symm rfl⟩

/-! ### Where the walk ends -/

variable (platform io mem iop seq)

/-- No section that the walk gets to leads back to itself. -/
def NoWayBack : Prop :=
  Acyclic (sectionTurn platform io mem iop seq) (blPlace iop)

/-- The walk ends after finitely many headers, with 0 or behind the last
section. -/
theorem verifyDataPosIn_iff :
    (∃ fuel pos, verifyDataPosIn platform io mem iop seq fuel = some pos ∧
        (pos = 0 ∨ LastEnd platform io mem pos)) ↔
      imageSeqNum ≤ seq.toNat ∨ io.opens (iop.flash 0) = false ∨
        NoWayBack platform io mem iop seq := by
  unfold verifyDataPosIn NoWayBack
  by_cases outside : imageSeqNum ≤ seq.toNat
  · simp only [if_pos outside]
    exact iff_of_true ⟨0, 0, rfl, Or.inl rfl⟩ (Or.inl outside)
  · simp only [if_neg outside]
    rw [or_iff_right outside]
    cases opened : io.opens (iop.flash 0) with
    | false =>
        exact iff_of_true ⟨0, 0, rfl, Or.inl rfl⟩ (Or.inl rfl)
    | true =>
        rw [or_iff_right Bool.true_eq_false.mp,
          ← ends_iff_acyclic (places_finite (blPlace iop))]
        constructor
        · rintro ⟨fuel, pos, walked, _⟩
          exact ⟨pos, (walk_iff _ _).mp ⟨fuel, walked⟩⟩
        · rintro ⟨pos, ends⟩
          obtain ⟨fuel, walked⟩ := (walk_iff _ _).mpr ends
          obtain ⟨last, _, done⟩ := ends_at ends
          exact ⟨fuel, pos, walked, sectionTurn_done last pos done⟩

end

/-! ### A section that is its own next -/

/-- An application section whose next section is itself. -/
def selfSection : List Byte :=
  toBytes (0x48495741 : BitVec 32) ++ List.replicate 28 0 ++
    toBytes (0x8000 : BitVec 32) ++ toBytes imageAppId ++ List.replicate 24 0

/-- Such sections all over the flash. -/
def selfFlash : FlashMem :=
  fun _ address => selfSection.getD (address % imageHeaderSize) 0

/-- A bootloader of 32 KiB and two slots in a flash of 2 MiB. -/
def twoMegabytes : ImageOtaParam where
  imgMaxSize := 0xf8000
  blSize := 0x8000
  runningSeq := 0
  flash := fun _ => 0
  addr := fun seq => if seq = 0 then 0x8000 else 0x100000
  sized := Nat.lt_of_sub_pos (Nat.succ_pos _)
  placed := by
    intro seq
    split <;> omega

def magicPlatform : OtaPlatform where
  iop := twoMegabytes
  mSize := fun _ => 0x200000
  checkHeader := fun sh => decide (sh.magicNumber = 0x48495741)
  check := fun _ _ => true
  digest := fun _ _ _ => []
  small := fun _ => Nat.le_of_sub_eq_zero rfl
  onDevice := by
    intro seq
    change (if seq = 0 then 0x8000 else 0x100000) + 0xf8000 ≤ 0x200000
    split <;> omega

def readingIo : FlashIo :=
  { opens := fun _ => true, reads := fun _ _ => true }

/-- From the bootloader on, the walk reads the same header for ever. -/
theorem selfFlash_neverEnds :
    ¬ ∃ fuel pos, verifyDataPosIn magicPlatform readingIo selfFlash
        twoMegabytes 1 fuel = some pos ∧
      (pos = 0 ∨ LastEnd magicPlatform readingIo selfFlash pos) := by
  rintro ⟨fuel, pos, walked, _⟩
  have first : Leads (sectionTurn magicPlatform readingIo selfFlash
      twoMegabytes 1) (0, 0) (0, 0x100000) := rfl
  have again : Leads (sectionTurn magicPlatform readingIo selfFlash
      twoMegabytes 1) (0, 0x100000) (0, 0x100000) := rfl
  have ends := (walk_iff (0, 0) pos).mp ⟨fuel, walked⟩
  exact acyclic_of_ends ends (0, 0x100000) (ReflTransGen.single first)
    (TransGen.single again)

end XR872.Ota
