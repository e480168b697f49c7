/-
Agreement of the boot hash writer with the boot hash reader.

The writer stores a correction for every fuse that does not read back as asked
and looks at a correction record only when it stores one there. The reader
applies every record it finds. The two agree exactly when the records the writer
leaves alone are blank.
-/

import XR872.Efpg.BootHash

namespace XR872.Efpg

open BitView
open WriteOnce
open Chip.Efuse
open Fallible

/-! ### Running the driver calls in sequence -/

theorem readField_withSid (arch : ChipArchVer) (startBit bitNum : Nat)
    (dev : Device) (sid : BitVec 2048)
    (accepted : halEfuseRejects arch startBit bitNum = false) :
    readField arch startBit bitNum (dev.withSid sid) =
      (.ok (readBytes sid startBit bitNum), dev.withSid sid) := by
  unfold readField
  rw [halEfuseRead_withSid arch startBit bitNum dev sid accepted]
  rfl

theorem writeField_withSid (arch : ChipArchVer) (startBit bitNum : Nat)
    (data : List Byte) (dev : Device) (sid : BitVec 2048)
    (accepted : halEfuseRejects arch startBit bitNum = false) :
    writeField arch startBit bitNum data (dev.withSid sid) =
      (.ok (), dev.withSid (program sid dev.stuck startBit bitNum data)) := by
  unfold writeField
  rw [halEfuseWrite_withSid arch startBit bitNum data dev sid accepted]

theorem writeField_available (arch : ChipArchVer) (startBit bitNum : Nat)
    (data : List Byte) (dev : Device) (available : dev.available = true)
    (accepted : halEfuseRejects arch startBit bitNum = false) :
    writeField arch startBit bitNum data dev =
      (.ok (),
        dev.withSid (program dev.sid dev.stuck startBit bitNum data)) := by
  unfold writeField
  rw [halEfuseWrite_eq arch startBit bitNum data dev accepted available]

theorem writeField_refused (arch : ChipArchVer) (startBit bitNum : Nat)
    (data : List Byte) (dev : Device) (refused : dev.available = false) :
    writeField arch startBit bitNum data dev = (.error .rwErr, dev) := by
  obtain ⟨denied, unchanged⟩ :=
    halEfuseWrite_refused arch startBit bitNum data dev refused
  unfold writeField
  cases outcome : halEfuseWrite arch startBit bitNum data dev with
  | mk status after =>
      rw [outcome] at denied unchanged
      dsimp only at denied unchanged
      subst unchanged
      cases status with
      | ok => exact absurd rfl denied
      | error => rfl
      | busy => rfl

/-! ### The boot fields -/

/-- The boot fields lie side by side: two flag fuses, an enable fuse and eight
position fuses for each correction, then the hash. Every one-byte read of them
stays inside the words it loads. -/
structure BootFields (arch : ChipArchVer) (m : FuseMap) : Prop where
  flagNum : m.bootFlagNum = 2
  en1Start : m.boot1stEnStart = m.bootFlagStart + 2
  en1Num : m.boot1stEnNum = 1
  no1Start : m.boot1stNoStart = m.bootFlagStart + 3
  no1Num : m.boot1stNoNum = 8
  en2Start : m.boot2ndEnStart = m.bootFlagStart + 11
  en2Num : m.boot2ndEnNum = 1
  no2Start : m.boot2ndNoStart = m.bootFlagStart + 12
  no2Num : m.boot2ndNoNum = 8
  hashStart : m.bootHashStart = m.bootFlagStart + 20
  hashNum : m.bootHashNum = 256
  inside : m.bootFlagStart + 276 ≤ halEfuseBitNum arch
  flagLoaded : m.bootFlagStart + 8 ≤ loadedEnd m.bootFlagStart 2
  en1Loaded : m.bootFlagStart + 10 ≤ loadedEnd (m.bootFlagStart + 2) 1
  no1Loaded : m.bootFlagStart + 11 ≤ loadedEnd (m.bootFlagStart + 3) 8
  en2Loaded : m.bootFlagStart + 19 ≤ loadedEnd (m.bootFlagStart + 11) 1
  no2Loaded : m.bootFlagStart + 20 ≤ loadedEnd (m.bootFlagStart + 12) 8

theorem bootFields (arch : ChipArchVer) : BootFields arch (fuseMap arch) := by
  cases arch <;> constructor <;> decide

def bootStart (arch : ChipArchVer) : Nat := (fuseMap arch).bootFlagStart

theorem bootStart_inside (arch : ChipArchVer) : bootStart arch + 276 ≤ 2048 :=
  Nat.le_trans (bootFields arch).inside (halEfuseBitNum_le arch)

/-- The byte of fuses from `start` on. -/
def byteAt (sid : BitVec 2048) (start : Nat) : Byte := sid.extractLsb' start 8

theorem storeByte_readBytes (sid : BitVec 2048) (start num : Nat)
    (old : Byte) (positive : 0 < num) (small : num ≤ 8)
    (fits : start + 8 ≤ 2048) (loaded : start + 8 ≤ loadedEnd start num) :
    storeByte old (readBytes sid start num) = byteAt sid start := by
  rw [readBytes_byte sid start num positive small fits loaded]
  rfl

theorem bootRejects (arch : ChipArchVer) (offset num : Nat)
    (positive : 0 < num) (within : offset + num ≤ 276) :
    halEfuseRejects arch (bootStart arch + offset) num = false := by
  have inside := (bootFields arch).inside
  change bootStart arch + 276 ≤ _ at inside
  rw [halEfuseRejects_eq_false_iff]
  omega

/-! ### The reader on an array -/

/-- What `efpg_read_boot` returns for an array. -/
def bootReadOf (arch : ChipArchVer) (sid : BitVec 2048) :
    Except EfpgAck BootRead :=
  let start := bootStart arch
  let hash := readBytes sid (start + 20) 256
  let no1 := byteAt sid (start + 3)
  let no2 := byteAt sid (start + 12)
  if byteAt sid start = 0 then .error .nodataErr
  else if byteAt sid (start + 2) = 0 then
    .ok { data := hash, corrected := [] }
  else if byteAt sid (start + 11) = 0 then
    .ok { data := flipBits hash [no1], corrected := [no1] }
  else .ok { data := flipBits hash [no1, no2], corrected := [no1, no2] }

theorem efpgReadBoot_withSid (arch : ChipArchVer) (dev : Device)
    (sid : BitVec 2048) :
    efpgReadBoot arch (dev.withSid sid) =
      (bootReadOf arch sid, dev.withSid sid) := by
  have fields := bootFields arch
  have inside := bootStart_inside arch
  have start : (fuseMap arch).bootFlagStart = bootStart arch := rfl
  have read (offset num : Nat) (positive : 0 < num)
      (within : offset + num ≤ 276) :
      readField arch (bootStart arch + offset) num (dev.withSid sid) =
        (.ok (readBytes sid (bootStart arch + offset) num), dev.withSid sid) :=
    readField_withSid arch _ _ dev sid
      (bootRejects arch offset num positive within)
  have flagByte (old : Byte) :=
    storeByte_readBytes sid (bootStart arch) 2 old (by decide) (by decide)
      (by omega) fields.flagLoaded
  have en1Byte (old : Byte) :=
    storeByte_readBytes sid (bootStart arch + 2) 1 old (by decide) (by decide)
      (by omega) fields.en1Loaded
  have no1Byte (old : Byte) :=
    storeByte_readBytes sid (bootStart arch + 3) 8 old (by decide) (by decide)
      (by omega) fields.no1Loaded
  have en2Byte (old : Byte) :=
    storeByte_readBytes sid (bootStart arch + 11) 1 old (by decide) (by decide)
      (by omega) fields.en2Loaded
  have no2Byte (old : Byte) :=
    storeByte_readBytes sid (bootStart arch + 12) 8 old (by decide) (by decide)
      (by omega) fields.no2Loaded
  unfold efpgReadBoot
  dsimp only
  rw [fields.flagNum, fields.hashStart, fields.hashNum, fields.en1Start,
    fields.en1Num, fields.no1Start, fields.no1Num, fields.en2Start,
    fields.en2Num, fields.no2Start, fields.no2Num, start]
  unfold bootReadOf
  have readFlag := read 0 2 (by decide) (by decide)
  rw [Nat.add_zero] at readFlag
  rw [run_bind_ok _ _ _ _ _ readFlag]
  simp only [flagByte]
  by_cases noFlag : byteAt sid (bootStart arch) = 0
  · rw [if_pos noFlag, if_pos noFlag]
    rfl
  · rw [if_neg noFlag, if_neg noFlag,
      run_bind_ok _ _ _ _ _ (read 20 256 (by decide) (by decide)),
      run_bind_ok _ _ _ _ _ (read 2 1 (by decide) (by decide))]
    simp only [en1Byte]
    by_cases noFirst : byteAt sid (bootStart arch + 2) = 0
    · rw [if_pos noFirst, if_pos noFirst]
      rfl
    · rw [if_neg noFirst, if_neg noFirst,
        run_bind_ok _ _ _ _ _ (read 3 8 (by decide) (by decide)),
        run_bind_ok _ _ _ _ _ (read 11 1 (by decide) (by decide))]
      simp only [en2Byte, no1Byte]
      by_cases noSecond : byteAt sid (bootStart arch + 11) = 0
      · rw [if_pos noSecond, if_pos noSecond]
        rfl
      · rw [if_neg noSecond, if_neg noSecond,
          run_bind_ok _ _ _ _ _ (read 12 8 (by decide) (by decide))]
        simp only [no2Byte]
        rfl

/-! ### The writer on an array -/

theorem byteAt_eq_iff_holds (sid : BitVec 2048) (start : Nat) (byte : Byte) :
    byteAt sid start = byte ↔ Holds sid start 8 [byte] := by
  have bit : ∀ j < 8, bitAt [byte] j = byte.getLsbD j := fun j within =>
    bitAt_cons_lt byte [] j within
  unfold byteAt
  constructor
  · intro same j within
    rw [bit j within, ← same, BitVec.getLsbD_extractLsb']
    simp [within]
  · intro holds
    apply BitVec.eq_of_getLsbD_eq
    intro j within
    rw [BitVec.getLsbD_extractLsb', holds j within, bit j within]
    simp [within]

theorem byteAt_eq_zero_iff (sid : BitVec 2048) (start : Nat) :
    byteAt sid start = 0 ↔ ∀ j < 8, sid.getLsbD (start + j) = false :=
  byte_eq_zero_iff sid start

theorem byteAt_congr (left right : BitVec 2048) (start : Nat)
    (same : ∀ j < 8, left.getLsbD (start + j) = right.getLsbD (start + j)) :
    byteAt left start = byteAt right start := by
  apply BitVec.eq_of_getLsbD_eq
  intro j within
  unfold byteAt
  rw [BitVec.getLsbD_extractLsb', BitVec.getLsbD_extractLsb', same j within]

/-- A correction can be stored: its enable fuse rises, the seven position fuses
read along with it are blank, and the position survives programming. -/
def RecordTakes (sid stuck : BitVec 2048) (en : Nat) (no : Byte) : Prop :=
  (sid.getLsbD en = true ∨ stuck.getLsbD en = false) ∧
    (∀ j < 7, sid.getLsbD (en + 1 + j) = false) ∧
      Takes sid stuck (en + 1) 8 [no]

def recordCells (sid stuck : BitVec 2048) (en : Nat) (no : Byte) :
    BitVec 2048 :=
  program (program sid stuck en 1 [0x01]) stuck (en + 1) 8 [no]

theorem recordCells_outside (sid stuck : BitVec 2048) (en : Nat) (no : Byte)
    (fuse : Nat) (outside : fuse < en ∨ en + 9 ≤ fuse) :
    (recordCells sid stuck en no).getLsbD fuse = sid.getLsbD fuse := by
  unfold recordCells
  rw [program_outside _ _ _ _ _ _ (by omega),
    program_outside _ _ _ _ _ _ (by omega)]

theorem program_enable (sid stuck : BitVec 2048) (en : Nat)
    (inside : en + 1 ≤ 2048) :
    (program sid stuck en 1 [0x01]).getLsbD en =
      (sid.getLsbD en || !stuck.getLsbD en) := by
  have one : bitAt [(0x01 : Byte)] 0 = true := by decide
  have value := program_window sid stuck en 1 [0x01] 0 (by decide) inside
  rw [one, Nat.add_zero, Bool.true_and] at value
  exact value

theorem byteAt_enable_iff (sid stuck : BitVec 2048) (en : Nat)
    (inside : en + 9 ≤ 2048) :
    byteAt (program sid stuck en 1 [0x01]) en = 0x01 ↔
      (sid.getLsbD en = true ∨ stuck.getLsbD en = false) ∧
        ∀ j < 7, sid.getLsbD (en + 1 + j) = false := by
  have enable := program_enable sid stuck en (by omega)
  have rest : ∀ j,
      (program sid stuck en 1 [0x01]).getLsbD (en + 1 + j) =
        sid.getLsbD (en + 1 + j) := fun j =>
    program_outside _ _ _ _ _ _ (Or.inr (by omega))
  have zeros : ∀ j < 7, bitAt [(0x01 : Byte)] (1 + j) = false := by decide
  have one : bitAt [(0x01 : Byte)] 0 = true := by decide
  have enable_iff :
      (sid.getLsbD en || !stuck.getLsbD en) = true ↔
        (sid.getLsbD en = true ∨ stuck.getLsbD en = false) := by
    cases sid.getLsbD en <;> cases stuck.getLsbD en <;> decide
  rw [byteAt_eq_iff_holds]
  constructor
  · intro holds
    have first := holds 0 (by decide)
    rw [Nat.add_zero, enable, one] at first
    refine ⟨enable_iff.mp first, ?_⟩
    intro j within
    have later := holds (1 + j) (by omega)
    rw [← Nat.add_assoc, rest, zeros j within] at later
    exact later
  · rintro ⟨rises, blank⟩ j within
    match j with
    | 0 =>
        rw [Nat.add_zero, enable, one]
        exact enable_iff.mpr rises
    | k + 1 =>
        have order : k + 1 = 1 + k := Nat.add_comm k 1
        rw [order, ← Nat.add_assoc, rest, zeros k (by omega)]
        exact blank k (by omega)

theorem byteAt_position_iff (sid stuck : BitVec 2048) (en : Nat) (no : Byte)
    (inside : en + 9 ≤ 2048) :
    byteAt (recordCells sid stuck en no) (en + 1) = no ↔
      Takes sid stuck (en + 1) 8 [no] := by
  rw [byteAt_eq_iff_holds, recordCells,
    holds_program_iff_takes _ _ _ _ _ (by omega)]
  apply takes_congr
  intro j _
  exact program_outside _ _ _ _ _ _ (Or.inr (by omega))

theorem efpgWriteBootError_run (arch : ChipArchVer) (dev : Device)
    (sid : BitVec 2048) (offset : Nat) (errNo : Byte)
    (within : offset + 9 ≤ 276)
    (enLoaded : bootStart arch + offset + 8 ≤
      loadedEnd (bootStart arch + offset) 1)
    (noLoaded : bootStart arch + (offset + 1) + 8 ≤
      loadedEnd (bootStart arch + (offset + 1)) 8) :
    let en := bootStart arch + offset
    let run := efpgWriteBootError arch en 1 (bootStart arch + (offset + 1)) 8
      errNo (dev.withSid sid)
    (RecordTakes sid dev.stuck en errNo →
        run = (.ok (), dev.withSid (recordCells sid dev.stuck en errNo))) ∧
      (¬ RecordTakes sid dev.stuck en errNo →
        ∃ after, run = (.error .diErr, after)) := by
  have inside := bootStart_inside arch
  have enRejects := bootRejects arch offset 1 (by decide) (by omega)
  have noRejects := bootRejects arch (offset + 1) 8 (by decide) (by omega)
  have enByte (cells : BitVec 2048) (old : Byte) :=
    storeByte_readBytes cells (bootStart arch + offset) 1 old (by decide)
      (by decide) (by omega) enLoaded
  have noByte (cells : BitVec 2048) (old : Byte) :=
    storeByte_readBytes cells (bootStart arch + (offset + 1)) 8 old (by decide)
      (by decide) (by omega) noLoaded
  have enable := byteAt_enable_iff sid dev.stuck (bootStart arch + offset)
    (by omega)
  have position := byteAt_position_iff sid dev.stuck (bootStart arch + offset)
    errNo (by omega)
  dsimp only
  unfold efpgWriteBootError
  rw [run_bind_ok _ _ _ _ _
      (writeField_withSid arch _ _ _ dev sid enRejects),
    run_bind_ok _ _ _ _ _ (readField_withSid arch _ _ dev _ enRejects)]
  simp only [enByte]
  by_cases rises :
      byteAt (program sid dev.stuck (bootStart arch + offset) 1 [0x01])
        (bootStart arch + offset) = 0x01
  · rw [if_neg (not_not_intro rises),
      run_bind_ok _ _ _ _ _
        (writeField_withSid arch _ _ _ dev _ noRejects),
      run_bind_ok _ _ _ _ _ (readField_withSid arch _ _ dev _ noRejects)]
    simp only [noByte]
    by_cases same :
        byteAt (recordCells sid dev.stuck (bootStart arch + offset) errNo)
          (bootStart arch + (offset + 1)) = errNo
    · refine ⟨fun _ => ?_, fun refused => ?_⟩
      · exact congrFun (if_neg (not_not_intro same.symm)) _
      · exact absurd ⟨(enable.mp rises).1, (enable.mp rises).2,
          position.mp same⟩ refused
    · refine ⟨fun takes => absurd (position.mpr takes.2.2) same, fun _ => ?_⟩
      refine ⟨dev.withSid (recordCells sid dev.stuck (bootStart arch + offset)
        errNo), ?_⟩
      exact congrFun (if_pos (Ne.symm same)) _
  · refine ⟨fun takes => absurd (enable.mpr ⟨takes.1, takes.2.1⟩) rises,
      fun _ => ?_⟩
    rw [if_pos rises]
    exact ⟨_, rfl⟩

def FlagShows (sid stuck : BitVec 2048) (start : Nat) : Prop :=
  ∃ j < 8, sid.getLsbD (start + j) = true ∨
    (j < 2 ∧ stuck.getLsbD (start + j) = false)

theorem flagShows_iff (sid stuck : BitVec 2048) (start : Nat)
    (inside : start + 8 ≤ 2048) :
    byteAt (program sid stuck start 2 [0x03]) start ≠ 0 ↔
      FlagShows sid stuck start := by
  have ones : ∀ j < 2, bitAt [(0x03 : Byte)] j = true := by decide
  have shown : ∀ j < 8,
      (program sid stuck start 2 [0x03]).getLsbD (start + j) =
        (sid.getLsbD (start + j) ||
          (decide (j < 2) && !stuck.getLsbD (start + j))) := by
    intro j within
    by_cases flag : j < 2
    · rw [program_window sid stuck start 2 [0x03] j flag (by omega),
        ones j flag]
      simp [flag]
    · rw [program_outside _ _ _ _ _ _ (Or.inr (by omega))]
      simp [flag]
  rw [Ne, byteAt_eq_zero_iff]
  constructor
  · intro nonzero
    by_contra hidden
    apply nonzero
    intro j within
    rw [shown j within]
    cases burned : sid.getLsbD (start + j) with
    | true => exact absurd ⟨j, within, Or.inl burned⟩ hidden
    | false =>
        by_cases flag : j < 2
        · cases takes : stuck.getLsbD (start + j) with
          | true => simp
          | false => exact absurd ⟨j, within, Or.inr ⟨flag, takes⟩⟩ hidden
        · simp [flag]
  · rintro ⟨j, within, answer⟩ zero
    have clear := zero j within
    rw [shown j within] at clear
    rcases answer with burned | ⟨flag, takes⟩
    · simp [burned] at clear
    · simp [flag, takes] at clear

theorem efpgWriteBootFlag_run (arch : ChipArchVer) (dev : Device)
    (sid : BitVec 2048) :
    (FlagShows sid dev.stuck (bootStart arch) →
        efpgWriteBootFlag arch (dev.withSid sid) =
          (.ok (), dev.withSid
            (program sid dev.stuck (bootStart arch) 2 [0x03]))) ∧
      (¬ FlagShows sid dev.stuck (bootStart arch) →
        ∃ after, efpgWriteBootFlag arch (dev.withSid sid) =
          (.error .diErr, after)) := by
  have fields := bootFields arch
  have inside := bootStart_inside arch
  have rejects := bootRejects arch 0 2 (by decide) (by decide)
  rw [Nat.add_zero] at rejects
  have start : (fuseMap arch).bootFlagStart = bootStart arch := rfl
  have flagByte (cells : BitVec 2048) (old : Byte) :=
    storeByte_readBytes cells (bootStart arch) 2 old (by decide) (by decide)
      (by omega) fields.flagLoaded
  have shows_iff := flagShows_iff sid dev.stuck (bootStart arch) (by omega)
  unfold efpgWriteBootFlag
  rw [fields.flagNum, start,
    run_bind_ok _ _ _ _ _ (writeField_withSid arch _ _ _ dev sid rejects),
    run_bind_ok _ _ _ _ _ (readField_withSid arch _ _ dev _ rejects)]
  simp only [flagByte]
  by_cases zero : byteAt (program sid dev.stuck (bootStart arch) 2 [0x03])
      (bootStart arch) = 0
  · rw [if_pos zero]
    exact ⟨fun shows => absurd zero (shows_iff.mpr shows),
      fun _ => ⟨_, rfl⟩⟩
  · rw [if_neg zero]
    exact ⟨fun _ => rfl, fun hidden => absurd (shows_iff.mp zero) hidden⟩

/-! ### The records and the flag on an array -/

theorem byteAt_ne_zero (sid : BitVec 2048) (start j : Nat) (within : j < 8)
    (burned : sid.getLsbD (start + j) = true) : byteAt sid start ≠ 0 := by
  intro zero
  have blank := (byteAt_eq_zero_iff sid start).mp zero j within
  rw [burned] at blank
  contradiction

theorem recordCells_enable (sid stuck : BitVec 2048) (en : Nat) (no : Byte)
    (inside : en + 1 ≤ 2048) (takes : RecordTakes sid stuck en no) :
    (recordCells sid stuck en no).getLsbD en = true := by
  unfold recordCells
  rw [program_outside _ _ _ _ _ _ (Or.inl (Nat.lt_succ_self en)),
    program_enable sid stuck en inside]
  rcases takes.1 with burned | rises
  · rw [burned, Bool.true_or]
  · rw [rises, Bool.not_false, Bool.or_true]

theorem recordTakes_congr (left right stuck : BitVec 2048) (en : Nat)
    (no : Byte)
    (same : ∀ fuse, en ≤ fuse → fuse < en + 9 →
      left.getLsbD fuse = right.getLsbD fuse) :
    RecordTakes left stuck en no ↔ RecordTakes right stuck en no := by
  have position := takes_congr left right stuck (en + 1) 8 [no]
    fun j within => same _ (by omega) (by omega)
  unfold RecordTakes
  rw [same en (Nat.le_refl en) (by omega), position]
  constructor
  · rintro ⟨rises, blank, takes⟩
    exact ⟨rises, fun j within => by
      rw [← same _ (by omega) (by omega)]
      exact blank j within, takes⟩
  · rintro ⟨rises, blank, takes⟩
    exact ⟨rises, fun j within => by
      rw [same _ (by omega) (by omega)]
      exact blank j within, takes⟩

theorem flagShows_congr (left right stuck : BitVec 2048) (start : Nat)
    (same : ∀ j < 8, left.getLsbD (start + j) = right.getLsbD (start + j)) :
    FlagShows left stuck start ↔ FlagShows right stuck start := by
  constructor
  · rintro ⟨j, within, answer⟩
    rw [same j within] at answer
    exact ⟨j, within, answer⟩
  · rintro ⟨j, within, answer⟩
    rw [← same j within] at answer
    exact ⟨j, within, answer⟩

def Recordable (sid stuck : BitVec 2048) (start : Nat) : List Nat → Prop
  | [] => True
  | [first] => RecordTakes sid stuck (start + 2) (BitVec.ofNat 8 first)
  | [first, second] =>
      RecordTakes sid stuck (start + 2) (BitVec.ofNat 8 first) ∧
        RecordTakes sid stuck (start + 11) (BitVec.ofNat 8 second)
  | _ => False

def recordedCells (sid stuck : BitVec 2048) (start : Nat) :
    List Nat → BitVec 2048
  | [] => sid
  | [first] => recordCells sid stuck (start + 2) (BitVec.ofNat 8 first)
  | first :: second :: _ =>
      recordCells (recordCells sid stuck (start + 2) (BitVec.ofNat 8 first))
        stuck (start + 11) (BitVec.ofNat 8 second)

theorem recordable_congr (left right stuck : BitVec 2048) (start : Nat)
    (errs : List Nat)
    (same : ∀ fuse, start ≤ fuse → fuse < start + 20 →
      left.getLsbD fuse = right.getLsbD fuse) :
    Recordable left stuck start errs ↔ Recordable right stuck start errs := by
  have record (en : Nat) (no : Byte) (reached : start + 2 ≤ en)
      (within : en + 9 ≤ start + 20) :=
    recordTakes_congr left right stuck en no fun fuse above below =>
      same fuse (by omega) (by omega)
  match errs with
  | [] => exact Iff.rfl
  | [first] => exact record _ _ (by omega) (by omega)
  | [first, second] =>
      exact and_congr (record _ _ (by omega) (by omega))
        (record _ _ (by omega) (by omega))
  | _ :: _ :: _ :: _ => exact Iff.rfl

theorem recordedCells_outside (sid stuck : BitVec 2048) (start : Nat)
    (errs : List Nat) (fuse : Nat)
    (outside : fuse < start + 2 ∨ start + 20 ≤ fuse) :
    (recordedCells sid stuck start errs).getLsbD fuse = sid.getLsbD fuse := by
  match errs with
  | [] => rfl
  | [first] => exact recordCells_outside _ _ _ _ _ (by omega)
  | first :: second :: _ =>
      unfold recordedCells
      rw [recordCells_outside _ _ _ _ _ (by omega),
        recordCells_outside _ _ _ _ _ (by omega)]

theorem recordTakes_second (sid stuck : BitVec 2048) (start : Nat)
    (first second : Byte) :
    RecordTakes (recordCells sid stuck (start + 2) first) stuck (start + 11)
        second ↔
      RecordTakes sid stuck (start + 11) second := by
  apply recordTakes_congr
  intro fuse reached _
  exact recordCells_outside _ _ _ _ _ (Or.inr (by omega))

theorem efpgWriteBootErrors_run (arch : ChipArchVer) (dev : Device)
    (sid : BitVec 2048) (errs : List Nat) (record : HashErrors)
    (recorded : HashErrors.ofList errs = some record) :
    let start := bootStart arch
    let run := efpgWriteBootErrors arch record (dev.withSid sid)
    (Recordable sid dev.stuck start errs →
        run = (.ok (), dev.withSid (recordedCells sid dev.stuck start errs))) ∧
      (¬ Recordable sid dev.stuck start errs →
        ∃ after, run = (.error .diErr, after)) := by
  have fields := bootFields arch
  have start : (fuseMap arch).bootFlagStart = bootStart arch := rfl
  have first (cells : BitVec 2048) (no : Byte) :=
    efpgWriteBootError_run arch dev cells 2 no (by decide) fields.en1Loaded
      fields.no1Loaded
  have second (cells : BitVec 2048) (no : Byte) :=
    efpgWriteBootError_run arch dev cells 11 no (by decide) fields.en2Loaded
      fields.no2Loaded
  dsimp only at first second ⊢
  unfold efpgWriteBootErrors
  rw [fields.en1Start, fields.en1Num, fields.no1Start, fields.no1Num,
    fields.en2Start, fields.en2Num, fields.no2Start, fields.no2Num, start]
  match errs with
  | [] =>
      obtain rfl := Option.some.inj recorded
      exact ⟨fun _ => rfl, fun refused => absurd trivial refused⟩
  | [a] =>
      obtain rfl := Option.some.inj recorded
      rw [if_pos Nat.zero_lt_one, if_neg (Nat.succ_ne_succ_iff.mpr Nat.zero_ne_one),
        bind_pure_unit]
      exact first sid (BitVec.ofNat 8 a)
  | [a, b] =>
      obtain rfl := Option.some.inj recorded
      rw [if_pos Nat.zero_lt_two, if_pos rfl]
      by_cases takes :
          RecordTakes sid dev.stuck (bootStart arch + 2) (BitVec.ofNat 8 a)
      · rw [run_bind_ok _ _ _ _ _ ((first sid (BitVec.ofNat 8 a)).1 takes)]
        obtain ⟨stored, refused⟩ :=
          second
            (recordCells sid dev.stuck (bootStart arch + 2) (BitVec.ofNat 8 a))
            (BitVec.ofNat 8 b)
        rw [recordTakes_second] at stored refused
        exact ⟨fun both => stored both.2,
          fun notBoth => refused fun later => notBoth ⟨takes, later⟩⟩
      · obtain ⟨after, failed⟩ := (first sid (BitVec.ofNat 8 a)).2 takes
        rw [run_bind_error _ _ _ _ _ failed]
        exact ⟨fun both => absurd both.1 takes, fun _ => ⟨after, rfl⟩⟩
  | _ :: _ :: _ :: _ => contradiction

/-! ### The writer as a whole -/

/-- Hash positions that the array does not take: a zero over a burned fuse, or a
one over a blank fuse that is stuck. -/
def untakenBits (arch : ChipArchVer) (sid stuck : BitVec 2048)
    (hash : BitVec 256) : List Nat :=
  (List.range 256).filter fun j =>
    hash.getLsbD j !=
      (sid.getLsbD (bootStart arch + 20 + j) ||
        (hash.getLsbD j && !stuck.getLsbD (bootStart arch + 20 + j)))

def hashCells (arch : ChipArchVer) (sid stuck : BitVec 2048)
    (hash : BitVec 256) : BitVec 2048 :=
  program sid stuck (bootStart arch + 20) 256 (toBytes hash)

def Storable (arch : ChipArchVer) (sid stuck : BitVec 2048)
    (hash : BitVec 256) : Prop :=
  let errs := untakenBits arch sid stuck hash
  Recordable sid stuck (bootStart arch) errs ∧
    (errs = [] → FlagShows sid stuck (bootStart arch))

def writtenCells (arch : ChipArchVer) (sid stuck : BitVec 2048)
    (hash : BitVec 256) : BitVec 2048 :=
  program
    (recordedCells (hashCells arch sid stuck hash) stuck (bootStart arch)
      (untakenBits arch sid stuck hash))
    stuck (bootStart arch) 2 [0x03]

theorem bitAt_readBack (arch : ChipArchVer) (sid stuck : BitVec 2048)
    (hash : BitVec 256) (j : Nat) (within : j < 256) :
    bitAt (readBytes (hashCells arch sid stuck hash) (bootStart arch + 20) 256)
        j =
      (sid.getLsbD (bootStart arch + 20 + j) ||
        (hash.getLsbD j && !stuck.getLsbD (bootStart arch + 20 + j))) := by
  have inside := bootStart_inside arch
  rw [bitAt_readBytes_window, hashCells, program_window,
    bitAt_toBytes (by decide)]
  all_goals first | exact within | omega

theorem mismatches_readBack (arch : ChipArchVer) (sid stuck : BitVec 2048)
    (hash : BitVec 256) :
    mismatches (toBytes hash)
        (readBytes (hashCells arch sid stuck hash) (bootStart arch + 20) 256)
        (8 * efpgBootBufLen) =
      untakenBits arch sid stuck hash := by
  unfold mismatches untakenBits
  apply List.filter_congr
  intro j member
  rw [bitAt_readBack arch sid stuck hash j (List.mem_range.mp member),
    bitAt_toBytes (by decide)]

theorem flagShows_of_enable (sid stuck : BitVec 2048) (start : Nat)
    (burned : sid.getLsbD (start + 2) = true) : FlagShows sid stuck start :=
  ⟨2, by decide, Or.inl burned⟩

theorem recordable_of_ofList_none (sid stuck : BitVec 2048) (start : Nat)
    (errs : List Nat) (overflow : HashErrors.ofList errs = none) :
    ¬ Recordable sid stuck start errs := by
  match errs with
  | [] => contradiction
  | [_] => contradiction
  | [_, _] => contradiction
  | _ :: _ :: _ :: _ => exact id

/-- Once the records are stored, only a write without corrections depends on the
flag fuses. -/
theorem flagShows_recordedCells (arch : ChipArchVer) (sid stuck : BitVec 2048)
    (hash : BitVec 256)
    (records : Recordable sid stuck (bootStart arch)
      (untakenBits arch sid stuck hash)) :
    FlagShows
        (recordedCells (hashCells arch sid stuck hash) stuck (bootStart arch)
          (untakenBits arch sid stuck hash))
        stuck (bootStart arch) ↔
      (untakenBits arch sid stuck hash = [] →
        FlagShows sid stuck (bootStart arch)) := by
  have inside := bootStart_inside arch
  have frame : ∀ fuse, bootStart arch ≤ fuse → fuse < bootStart arch + 20 →
      (hashCells arch sid stuck hash).getLsbD fuse = sid.getLsbD fuse :=
    fun fuse _ before => program_outside _ _ _ _ _ _ (Or.inl before)
  have hashRecords := (recordable_congr (hashCells arch sid stuck hash) sid
    stuck (bootStart arch) (untakenBits arch sid stuck hash) frame).mpr records
  match untakenBits arch sid stuck hash, hashRecords with
  | [], _ =>
      have same := flagShows_congr (hashCells arch sid stuck hash) sid stuck
        (bootStart arch) fun j within => frame _ (by omega) (by omega)
      exact ⟨fun shows _ => same.mp shows, fun shows => same.mpr (shows rfl)⟩
  | [first], takes =>
      refine ⟨fun _ empty => absurd empty (List.cons_ne_nil _ _), fun _ => ?_⟩
      apply flagShows_of_enable
      exact recordCells_enable _ _ _ _ (by omega) takes
  | [first, second], takes =>
      refine ⟨fun _ empty => absurd empty (List.cons_ne_nil _ _), fun _ => ?_⟩
      apply flagShows_of_enable
      unfold recordedCells
      rw [recordCells_outside _ _ _ _ _ (by omega)]
      exact recordCells_enable _ _ _ _ (by omega) takes.1

/-- `efpg_write_boot` on an available driver. -/
theorem efpgWriteBoot_run (arch : ChipArchVer) (dev : Device)
    (hash : BitVec 256) (available : dev.available = true) :
    let run := efpgWriteBoot arch (toBytes hash) dev
    (Storable arch dev.sid dev.stuck hash →
        run = (.ok (),
          dev.withSid (writtenCells arch dev.sid dev.stuck hash))) ∧
      (¬ Storable arch dev.sid dev.stuck hash →
        ∃ after, run = (.error .diErr, after)) := by
  have fields := bootFields arch
  have inside := bootStart_inside arch
  have start : (fuseMap arch).bootFlagStart = bootStart arch := rfl
  have hashRejects := bootRejects arch 20 256 (by decide) (by decide)
  have frame : ∀ fuse, bootStart arch ≤ fuse → fuse < bootStart arch + 20 →
      (hashCells arch dev.sid dev.stuck hash).getLsbD fuse =
        dev.sid.getLsbD fuse := fun fuse _ before =>
    program_outside _ _ _ _ _ _ (Or.inl before)
  have recordable := recordable_congr
    (hashCells arch dev.sid dev.stuck hash) dev.sid dev.stuck (bootStart arch)
    (untakenBits arch dev.sid dev.stuck hash) frame
  have write : writeField arch (bootStart arch + 20) 256 (toBytes hash) dev =
      (.ok (), dev.withSid (hashCells arch dev.sid dev.stuck hash)) :=
    writeField_available arch _ _ _ dev available hashRejects
  unfold efpgWriteBoot
  dsimp only
  rw [fields.hashStart, fields.hashNum, start, run_bind_ok _ _ _ _ _ write,
    run_bind_ok _ _ _ _ _ (readField_withSid arch _ _ dev _ hashRejects),
    efpgBootHashCmp_eq, mismatches_readBack]
  unfold Storable
  cases recorded :
      HashErrors.ofList (untakenBits arch dev.sid dev.stuck hash) with
  | none =>
      have overflow := recordable_of_ofList_none dev.sid dev.stuck
        (bootStart arch) _ recorded
      exact ⟨fun storable => absurd storable.1 overflow, fun _ => ⟨_, rfl⟩⟩
  | some errs =>
      obtain ⟨stored, refused⟩ := efpgWriteBootErrors_run arch dev
        (hashCells arch dev.sid dev.stuck hash) _ errs recorded
      rw [recordable] at stored refused
      by_cases records : Recordable dev.sid dev.stuck (bootStart arch)
          (untakenBits arch dev.sid dev.stuck hash)
      · have shows := flagShows_recordedCells arch dev.sid dev.stuck hash records
        obtain ⟨flagged, hidden⟩ := efpgWriteBootFlag_run arch dev
          (recordedCells (hashCells arch dev.sid dev.stuck hash) dev.stuck
            (bootStart arch) (untakenBits arch dev.sid dev.stuck hash))
        rw [shows] at flagged hidden
        dsimp only
        rw [run_bind_ok _ _ _ _ _ (stored records)]
        exact ⟨fun storable => flagged storable.2,
          fun notBoth => hidden fun later => notBoth ⟨records, later⟩⟩
      · obtain ⟨after, failed⟩ := refused records
        dsimp only
        rw [run_bind_error _ _ _ _ _ failed]
        exact ⟨fun storable => absurd storable.1 records,
          fun _ => ⟨after, rfl⟩⟩

theorem efpgWriteBoot_refused (arch : ChipArchVer) (dev : Device)
    (data : List Byte) (refused : dev.available = false) :
    efpgWriteBoot arch data dev = (.error .rwErr, dev) := by
  unfold efpgWriteBoot
  exact run_bind_error _ _ _ _ _ (writeField_refused arch _ _ data dev refused)

/-! ### Reading back what was written -/

def readPositions (sid : BitVec 2048) (start : Nat) : List Byte :=
  if byteAt sid (start + 2) = 0 then []
  else if byteAt sid (start + 11) = 0 then [byteAt sid (start + 3)]
  else [byteAt sid (start + 3), byteAt sid (start + 12)]

theorem bootReadOf_eq (arch : ChipArchVer) (sid : BitVec 2048) :
    bootReadOf arch sid =
      if byteAt sid (bootStart arch) = 0 then .error .nodataErr
      else .ok
        { data :=
            flipBits (readBytes sid (bootStart arch + 20) 256)
              (readPositions sid (bootStart arch))
          corrected := readPositions sid (bootStart arch) } := by
  unfold bootReadOf readPositions
  dsimp only
  by_cases noFirst : byteAt sid (bootStart arch + 2) = 0
  · rw [if_pos noFirst, if_pos noFirst]
    rfl
  · by_cases noSecond : byteAt sid (bootStart arch + 11) = 0
    · rw [if_neg noFirst, if_neg noFirst, if_pos noSecond, if_pos noSecond]
    · rw [if_neg noFirst, if_neg noFirst, if_neg noSecond, if_neg noSecond]

/-- The records that a write with these corrections does not touch are blank, as
far as the byte of their enable fuse shows. -/
def LeftBlank (sid : BitVec 2048) (start : Nat) : List Nat → Prop
  | [] => byteAt sid (start + 2) = 0
  | [_] => byteAt sid (start + 11) = 0
  | _ => True

theorem readPositions_congr (left right : BitVec 2048) (start : Nat)
    (same : ∀ fuse, start + 2 ≤ fuse → fuse < start + 20 →
      left.getLsbD fuse = right.getLsbD fuse) :
    readPositions left start = readPositions right start := by
  have byte (offset : Nat) (above : 2 ≤ offset) (below : offset + 8 ≤ 20) :
      byteAt left (start + offset) = byteAt right (start + offset) :=
    byteAt_congr _ _ _ fun j within => same _ (by omega) (by omega)
  unfold readPositions
  rw [byte 2 (by decide) (by decide), byte 3 (by decide) (by decide),
    byte 11 (by decide) (by decide), byte 12 (by decide) (by decide)]

theorem leftBlank_congr (left right : BitVec 2048) (start : Nat)
    (errs : List Nat)
    (same : ∀ fuse, start + 2 ≤ fuse → fuse < start + 20 →
      left.getLsbD fuse = right.getLsbD fuse) :
    LeftBlank left start errs ↔ LeftBlank right start errs := by
  have byte (offset : Nat) (above : 2 ≤ offset) (below : offset + 8 ≤ 20) :
      byteAt left (start + offset) = byteAt right (start + offset) :=
    byteAt_congr _ _ _ fun j within => same _ (by omega) (by omega)
  match errs with
  | [] =>
      change byteAt left _ = 0 ↔ byteAt right _ = 0
      rw [byte 2 (by decide) (by decide)]
  | [_] =>
      change byteAt left _ = 0 ↔ byteAt right _ = 0
      rw [byte 11 (by decide) (by decide)]
  | _ :: _ :: _ => exact Iff.rfl

theorem recordCells_found (sid stuck : BitVec 2048) (en : Nat) (no : Byte)
    (inside : en + 9 ≤ 2048) (takes : RecordTakes sid stuck en no) :
    byteAt (recordCells sid stuck en no) en ≠ 0 ∧
      byteAt (recordCells sid stuck en no) (en + 1) = no :=
  ⟨byteAt_ne_zero _ en 0 (by decide)
      (recordCells_enable sid stuck en no (by omega) takes),
    (byteAt_position_iff sid stuck en no inside).mpr takes.2.2⟩

/-- After the records are stored the reader inverts the recorded positions
exactly if the records left alone are blank. -/
theorem readPositions_recorded (sid stuck : BitVec 2048) (start : Nat)
    (errs : List Nat) (inside : start + 20 ≤ 2048)
    (small : ∀ no ∈ errs, (BitVec.ofNat 8 no).toNat = no)
    (records : Recordable sid stuck start errs) :
    (readPositions (recordedCells sid stuck start errs) start).map
          BitVec.toNat = errs ↔
      LeftBlank sid start errs := by
  match errs, records, small with
  | [], _, _ =>
      change (readPositions sid start).map _ = [] ↔ byteAt sid (start + 2) = 0
      unfold readPositions
      constructor
      · intro nothing
        by_contra found
        rw [if_neg found] at nothing
        split at nothing <;> contradiction
      · intro blank
        rw [if_pos blank]
        rfl
  | [a], takes, small =>
      have position := small a (List.mem_singleton_self a)
      obtain ⟨found, no⟩ := recordCells_found _ _ _ _ (by omega) takes
      have rest : byteAt
            (recordCells sid stuck (start + 2) (BitVec.ofNat 8 a))
            (start + 11) = byteAt sid (start + 11) :=
        byteAt_congr _ _ _ fun _ _ =>
          recordCells_outside _ _ _ _ _ (Or.inr (by omega))
      change (readPositions (recordCells sid stuck (start + 2)
        (BitVec.ofNat 8 a)) start).map _ = [a] ↔ byteAt sid (start + 11) = 0
      unfold readPositions
      rw [if_neg found, no, rest]
      constructor
      · intro one
        by_contra more
        rw [if_neg more] at one
        exact absurd (List.cons.inj one).2 (List.cons_ne_nil _ _)
      · intro blank
        rw [if_pos blank, List.map_singleton, position]
  | [a, b], takes, small =>
      have position1 := small a (List.mem_cons_self ..)
      have position2 := small b (List.mem_cons_of_mem _ (List.mem_singleton_self b))
      obtain ⟨found1, no1⟩ := recordCells_found _ _ _ _ (by omega) takes.1
      have takes2 := (recordTakes_second sid stuck start (BitVec.ofNat 8 a)
        (BitVec.ofNat 8 b)).mpr takes.2
      obtain ⟨found2, no2⟩ := recordCells_found _ _ _ _ (by omega) takes2
      have kept (offset : Nat) (below : offset + 8 ≤ 11) :
          byteAt
              (recordCells
                (recordCells sid stuck (start + 2) (BitVec.ofNat 8 a)) stuck
                (start + 11) (BitVec.ofNat 8 b))
              (start + offset) =
            byteAt (recordCells sid stuck (start + 2) (BitVec.ofNat 8 a))
              (start + offset) :=
        byteAt_congr _ _ _ fun _ _ =>
          recordCells_outside _ _ _ _ _ (Or.inl (by omega))
      refine ⟨fun _ => trivial, fun _ => ?_⟩
      unfold recordedCells readPositions
      rw [kept 2 (by decide), kept 3 (by decide), if_neg found1, if_neg found2,
        no1, no2, List.map_cons, List.map_singleton, position1, position2]

section Written

variable (arch : ChipArchVer) (sid stuck : BitVec 2048) (hash : BitVec 256)

theorem hashCells_front (fuse : Nat) (before : fuse < bootStart arch + 20) :
    (hashCells arch sid stuck hash).getLsbD fuse = sid.getLsbD fuse :=
  program_outside _ _ _ _ _ _ (Or.inl before)

theorem readBytes_written :
    readBytes (writtenCells arch sid stuck hash) (bootStart arch + 20) 256 =
      readBytes (hashCells arch sid stuck hash) (bootStart arch + 20) 256 := by
  have inside := bootStart_inside arch
  apply ext_of_bitAt
  · rw [readBytes_length, readBytes_length]
  · intro j within
    rw [readBytes_length] at within
    rw [bitAt_readBytes_window _ _ _ _ (by omega) (by omega),
      bitAt_readBytes_window _ _ _ _ (by omega) (by omega), writtenCells,
      program_outside _ _ _ _ _ _ (Or.inr (by omega)),
      recordedCells_outside _ _ _ _ _ (Or.inr (by omega))]

theorem untakenBits_toNat (no : Nat)
    (member : no ∈ untakenBits arch sid stuck hash) :
    (BitVec.ofNat 8 no).toNat = no := by
  have below := List.mem_range.mp (List.mem_of_mem_filter member)
  rw [BitVec.toNat_ofNat, Nat.mod_eq_of_lt below]

variable {sid stuck hash} in
/-- After a successful write the reader inverts the untaken bits exactly if the
records left alone are blank. -/
theorem readPositions_written (storable : Storable arch sid stuck hash) :
    (readPositions (writtenCells arch sid stuck hash) (bootStart arch)).map
          BitVec.toNat = untakenBits arch sid stuck hash ↔
      LeftBlank sid (bootStart arch) (untakenBits arch sid stuck hash) := by
  have inside := bootStart_inside arch
  have front := hashCells_front arch sid stuck hash
  have records := (recordable_congr (hashCells arch sid stuck hash) sid stuck
    (bootStart arch) _ fun fuse _ before => front fuse before).mpr storable.1
  have blank := leftBlank_congr (hashCells arch sid stuck hash) sid
    (bootStart arch) (untakenBits arch sid stuck hash)
    fun fuse _ before => front fuse before
  rw [← blank, ← readPositions_recorded _ stuck _ _ (by omega)
    (untakenBits_toNat arch sid stuck hash) records]
  have flagOutside : readPositions (writtenCells arch sid stuck hash)
        (bootStart arch) =
      readPositions
        (recordedCells (hashCells arch sid stuck hash) stuck (bootStart arch)
          (untakenBits arch sid stuck hash)) (bootStart arch) :=
    readPositions_congr _ _ _ fun fuse above _ =>
      program_outside _ _ _ _ _ _ (Or.inr above)
  rw [flagOutside]

variable {sid stuck hash} in
theorem byteAt_writtenFlag (storable : Storable arch sid stuck hash) :
    byteAt (writtenCells arch sid stuck hash) (bootStart arch) ≠ 0 := by
  have inside := bootStart_inside arch
  have shows := (flagShows_recordedCells arch sid stuck hash storable.1).mpr
    storable.2
  exact (flagShows_iff _ stuck (bootStart arch) (by omega)).mpr shows

theorem flipBits_written (positions : List Byte)
    (all : positions.map BitVec.toNat = untakenBits arch sid stuck hash) :
    flipBits
        (readBytes (writtenCells arch sid stuck hash) (bootStart arch + 20) 256)
        positions =
      toBytes hash := by
  have length : (toBytes hash).length = 32 := toBytes_length hash
  rw [readBytes_written]
  apply flipBits_mismatches
  · rw [readBytes_length, length]
  · rw [all, length]
    exact (mismatches_readBack arch sid stuck hash).symm

theorem untakenBits_length_le (records : Recordable sid stuck
    (bootStart arch) (untakenBits arch sid stuck hash)) :
    (untakenBits arch sid stuck hash).length ≤ 2 := by
  match untakenBits arch sid stuck hash, records with
  | [], _ => decide
  | [_], _ => exact Nat.le_succ 1
  | [_, _], _ => exact Nat.le_refl 2

end Written

/-! ### Agreement -/

/-- A successful write leaves at most two bits untaken, and the read that follows
succeeds, inverts those and no others, and returns the hash. -/
structure BootWriteReadAgree (arch : ChipArchVer) (dev : Device)
    (hash : BitVec 256) : Prop where
  corrections :
    (efpgWriteBoot arch (toBytes hash) dev).1 = .ok () →
      (untakenBits arch dev.sid dev.stuck hash).length ≤ 2
  readsBack :
    (efpgWriteBoot arch (toBytes hash) dev).1 = .ok () →
      ∃ read, (efpgReadBoot arch
          (efpgWriteBoot arch (toBytes hash) dev).2).1 = .ok read ∧
        read.data = toBytes hash ∧
        read.corrected.map BitVec.toNat =
          untakenBits arch dev.sid dev.stuck hash

/-- Whenever the fuses admit the write, the records it has no use for are
blank. -/
def UnusedRecordsBlank (arch : ChipArchVer) (sid stuck : BitVec 2048)
    (hash : BitVec 256) : Prop :=
  Storable arch sid stuck hash →
    LeftBlank sid (bootStart arch) (untakenBits arch sid stuck hash)

/-- For every fuse content, every set of stuck fuses and every hash, the boot
hash writer and reader agree exactly when the records the writer has no use for
are blank. -/
theorem bootWriteReadAgree_iff (arch : ChipArchVer) (dev : Device)
    (hash : BitVec 256) :
    BootWriteReadAgree arch dev hash ↔
      (dev.available = true →
        UnusedRecordsBlank arch dev.sid dev.stuck hash) := by
  cases available : dev.available with
  | false =>
      have refused := efpgWriteBoot_refused arch dev (toBytes hash) available
      have failed (succeeded :
          (efpgWriteBoot arch (toBytes hash) dev).1 = .ok ()) : False := by
        rw [refused] at succeeded
        contradiction
      exact ⟨fun _ impossible => absurd impossible Bool.false_ne_true,
        fun _ =>
          { corrections := fun succeeded => (failed succeeded).elim
            readsBack := fun succeeded => (failed succeeded).elim }⟩
  | true =>
      obtain ⟨stored, denied⟩ := efpgWriteBoot_run arch dev hash available
      constructor
      · intro agree _ storable
        have run := stored storable
        obtain ⟨read, succeeds, -, positions⟩ :=
          agree.readsBack (congrArg Prod.fst run)
        rw [run, efpgReadBoot_withSid, bootReadOf_eq,
          if_neg (byteAt_writtenFlag arch storable)] at succeeds
        obtain rfl := Except.ok.inj succeeds
        exact (readPositions_written arch storable).mp positions
      · intro blank
        have decided : (efpgWriteBoot arch (toBytes hash) dev).1 = .ok () →
            Storable arch dev.sid dev.stuck hash := by
          intro succeeded
          by_contra refused
          obtain ⟨after, failed⟩ := denied refused
          rw [failed] at succeeded
          contradiction
        refine
          { corrections := fun succeeded =>
              untakenBits_length_le _ _ _ _ (decided succeeded).1
            readsBack := fun succeeded => ?_ }
        have storable := decided succeeded
        have positions :=
          (readPositions_written arch storable).mpr (blank rfl storable)
        rw [stored storable, efpgReadBoot_withSid, bootReadOf_eq,
          if_neg (byteAt_writtenFlag arch storable)]
        exact ⟨_, rfl, flipBits_written _ _ _ _ _ positions, positions⟩

/-- The enable fuse of the first correction is burned before any write. -/
def burnedEnableDevice : Device :=
  { state := .ready
    hfClock := hoscClock24M
    sid := BitVec.twoPow 2048 248
    stuck := 0 }

/-- A hash that is stored without a single mismatch is read with bit 0
inverted. -/
theorem boot_burnedEnable_disagrees :
    (efpgWriteBoot .two (toBytes 1#256) burnedEnableDevice).1 = .ok () ∧
      (efpgReadBoot .two
          (efpgWriteBoot .two (toBytes 1#256) burnedEnableDevice).2).1 =
        .ok { data := toBytes 0#256, corrected := [0] } ∧
      ¬ BootWriteReadAgree .two burnedEnableDevice 1#256 := by
  have written :
      (efpgWriteBoot .two (toBytes 1#256) burnedEnableDevice).1 = .ok () := by
    decide +kernel
  have readFlipped :
      (efpgReadBoot .two
          (efpgWriteBoot .two (toBytes 1#256) burnedEnableDevice).2).1 =
        .ok { data := toBytes 0#256, corrected := [0] } := by decide +kernel
  refine ⟨written, readFlipped, ?_⟩
  intro agree
  obtain ⟨read, succeeds, data, -⟩ := agree.readsBack written
  rw [readFlipped] at succeeds
  obtain rfl := Except.ok.inj succeeds
  exact absurd data (by decide +kernel)

end XR872.Efpg
