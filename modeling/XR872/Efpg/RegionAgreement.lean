/-
Agreement of the region writer with the region reader.

The writer goes down from the first used slot and accepts a slot when the flag
byte it reads back is not zero and the data compares equal. That byte shows six
fuses beyond the slot's own pair, so a slot whose two flag fuses are both stuck
can still be accepted. The reader looks at the pair itself. The two agree
exactly when the slot that the writer settles on can be flagged, or the slot
that the reader takes instead already holds the value.
-/

import XR872.Efpg.RegionSpec

namespace XR872.Efpg

open BitView
open WriteOnce
open Chip.Efuse

/-! ### What the writer decides, in terms of the initial fuses -/

def FlagTakes (info : RegionInfo) (stuck : BitVec 2048) (slot : Nat) : Prop :=
  stuck.getLsbD (info.flagAt slot) = false ∨
    stuck.getLsbD (info.flagAt slot + 1) = false

/-- Some fuse of the flag byte is burned, or is a flag fuse below the first used
slot that takes the program. -/
def FlagAnswers (info : RegionInfo) (sid stuck : BitVec 2048)
    (slot : Nat) : Prop :=
  ∃ j < 8,
    sid.getLsbD (info.flagAt slot + j) = true ∨
      (info.flagAt slot + j < info.flagAt (firstUsedSlot info sid) ∧
        stuck.getLsbD (info.flagAt slot + j) = false)

def Accepts (info : RegionInfo) (sid stuck : BitVec 2048)
    (data : List Byte) (slot : Nat) : Prop :=
  FlagAnswers info sid stuck slot ∧
    Takes sid stuck (info.dataAt slot) info.dataBits data

def SettlesOn (info : RegionInfo) (sid stuck : BitVec 2048)
    (data : List Byte) (slot : Nat) : Prop :=
  slot < firstUsedSlot info sid ∧ Accepts info sid stuck data slot ∧
    ∀ later, slot < later → later < firstUsedSlot info sid →
      ¬ Accepts info sid stuck data later

/-- The slot written last can be flagged; or no slot passed over on the way down
can be flagged either, and the first used slot already holds the value. -/
def SettledSlotVisible (info : RegionInfo) (sid stuck : BitVec 2048)
    (data : List Byte) : Prop :=
  ∀ slot, SettlesOn info sid stuck data slot →
    FlagTakes info stuck slot ∨
      (firstUsedSlot info sid < info.slots ∧
        (∀ passed, slot < passed → passed < firstUsedSlot info sid →
          ¬ FlagTakes info stuck passed) ∧
        Holds sid (info.dataAt (firstUsedSlot info sid)) info.dataBits data)

/-! ### The loop invariant -/

/-- The fuses when the writer has dealt with the slots from `idx` on. -/
structure Progress (info : RegionInfo) (sid₀ stuck : BitVec 2048)
    (idx : Nat) (sid : BitVec 2048) : Prop where
  flagsBelow : ∀ fuse, fuse < info.flagAt idx →
    sid.getLsbD fuse = sid₀.getLsbD fuse
  flagsAbove : ∀ fuse, info.flagAt (firstUsedSlot info sid₀) ≤ fuse →
    fuse < info.dataStart → sid.getLsbD fuse = sid₀.getLsbD fuse
  flagsPulsed : ∀ fuse, info.flagAt idx ≤ fuse →
    fuse < info.flagAt (firstUsedSlot info sid₀) →
      sid.getLsbD fuse = !stuck.getLsbD fuse
  dataKept : ∀ slot, slot < idx ∨ firstUsedSlot info sid₀ ≤ slot →
    ∀ j < info.dataBits,
      sid.getLsbD (info.dataAt slot + j) =
        sid₀.getLsbD (info.dataAt slot + j)

/-- Every slot from `idx` on that shows a flag holds some other value. -/
def PassedOver (info : RegionInfo) (sid₀ stuck : BitVec 2048)
    (data : List Byte) (idx : Nat) (sid : BitVec 2048) : Prop :=
  ∀ slot, idx ≤ slot → slot < firstUsedSlot info sid₀ →
    FlagTakes info stuck slot →
      ¬ Holds sid (info.dataAt slot) info.dataBits data

section Loop

variable {arch : ChipArchVer} {info : RegionInfo}
variable {sid₀ stuck : BitVec 2048} {data : List Byte}

theorem RegionInfo.flagAt_mono (info : RegionInfo) {low high : Nat}
    (order : low ≤ high) : info.flagAt low ≤ info.flagAt high := by
  unfold RegionInfo.flagAt regionAtomicFlagBits
  omega

theorem RegionInfo.flagAt_succ (info : RegionInfo) (slot : Nat) :
    info.flagAt (slot + 1) = info.flagAt slot + 2 := by
  unfold RegionInfo.flagAt regionAtomicFlagBits
  omega

theorem RegionInfo.Fits.flagAt_slots (fits : info.Fits arch) :
    info.flagAt info.slots = info.dataStart := by
  have pairs := fits.pairs
  have adjacent := fits.adjacent
  unfold RegionInfo.flagAt regionAtomicFlagBits
  omega

theorem RegionInfo.Fits.flagAt_first (fits : info.Fits arch)
    (sid : BitVec 2048) :
    info.flagAt (firstUsedSlot info sid) ≤ info.dataStart := by
  rw [← fits.flagAt_slots]
  exact info.flagAt_mono (firstUsedSlot_le info sid)

theorem RegionInfo.dataAt_mono (info : RegionInfo) {low high : Nat}
    (order : low < high) :
    info.dataAt low + info.dataBits ≤ info.dataAt high := by
  have covered : (low + 1) * info.dataBits ≤ high * info.dataBits :=
    Nat.mul_le_mul_right info.dataBits order
  rw [Nat.succ_mul] at covered
  unfold RegionInfo.dataAt
  omega

theorem RegionInfo.dataStart_le_dataAt (info : RegionInfo) (slot : Nat) :
    info.dataStart ≤ info.dataAt slot :=
  Nat.le_add_right _ _

theorem writeSlot_other (info : RegionInfo) (sid stuck : BitVec 2048)
    (data : List Byte) (slot other : Nat) (different : other ≠ slot)
    (j : Nat) (within : j < info.dataBits) :
    (writeSlot info sid stuck data slot).getLsbD (info.dataAt other + j) =
      sid.getLsbD (info.dataAt other + j) := by
  apply program_outside
  rcases Nat.lt_or_gt_of_ne different with below | above
  · have apart := info.dataAt_mono below
    exact Or.inl (by omega)
  · have apart := info.dataAt_mono above
    exact Or.inr (by omega)

theorem writeSlot_flags (info : RegionInfo) (sid stuck : BitVec 2048)
    (data : List Byte) (slot fuse : Nat) (flag : fuse < info.dataStart) :
    (writeSlot info sid stuck data slot).getLsbD fuse = sid.getLsbD fuse := by
  apply program_outside
  have start := info.dataStart_le_dataAt slot
  exact Or.inl (by omega)

theorem pulseFlag_data (fits : info.Fits arch) (sid stuck : BitVec 2048)
    (slot : Nat) (within : slot < info.slots) (fuse : Nat)
    (data : info.dataStart ≤ fuse) :
    (pulseFlag info sid stuck slot).getLsbD fuse = sid.getLsbD fuse := by
  apply program_outside
  have below := fits.flagInside slot within
  unfold regionAtomicFlagBits
  exact Or.inr (by omega)

theorem pulseFlag_pair (fits : info.Fits arch) (sid stuck : BitVec 2048)
    (slot : Nat) (within : slot < info.slots) (j : Nat) (pair : j < 2) :
    (pulseFlag info sid stuck slot).getLsbD (info.flagAt slot + j) =
      (sid.getLsbD (info.flagAt slot + j) ||
        !stuck.getLsbD (info.flagAt slot + j)) := by
  have below := fits.flagInside slot within
  have array := fits.array
  have ones : bitAt [regionAtomicFlagMask.setWidth 8] j = true := by
    match j with
    | 0 => decide
    | 1 => decide
    | _ + 2 => omega
  have value := program_window sid stuck (info.flagAt slot)
    regionAtomicFlagBits [regionAtomicFlagMask.setWidth 8] j pair
    (by unfold regionAtomicFlagBits; omega)
  rw [ones, Bool.true_and] at value
  exact value

theorem flagBelowFirst_blank (info : RegionInfo) (sid : BitVec 2048)
    (fuse : Nat) (start : info.flagStart ≤ fuse)
    (below : fuse < info.flagAt (firstUsedSlot info sid)) :
    sid.getLsbD fuse = false := by
  have blank := slotUsed_below_first info sid ((fuse - info.flagStart) / 2)
    (by
      unfold RegionInfo.flagAt regionAtomicFlagBits at below
      omega)
  unfold slotUsed RegionInfo.flagAt regionAtomicFlagBits at blank
  rw [Bool.or_eq_false_iff] at blank
  rcases Nat.mod_two_eq_zero_or_one (fuse - info.flagStart) with even | odd
  · have address :
        info.flagStart + (fuse - info.flagStart) / 2 * 2 = fuse := by omega
    rw [address] at blank
    exact blank.1
  · have address :
        info.flagStart + (fuse - info.flagStart) / 2 * 2 + 1 = fuse := by
      omega
    rw [address] at blank
    exact blank.2

theorem Progress.initial (info : RegionInfo) (sid₀ stuck : BitVec 2048) :
    Progress info sid₀ stuck (firstUsedSlot info sid₀) sid₀ where
  flagsBelow _ _ := rfl
  flagsAbove _ _ _ := rfl
  flagsPulsed fuse low high := by omega
  dataKept _ _ _ _ := rfl

theorem Progress.pulse (fits : info.Fits arch) {sid : BitVec 2048}
    {slot : Nat} (progress : Progress info sid₀ stuck (slot + 1) sid)
    (below : slot < firstUsedSlot info sid₀) :
    Progress info sid₀ stuck slot (pulseFlag info sid stuck slot) where
  flagsBelow := by
    intro fuse low
    have next := info.flagAt_succ slot
    rw [pulseFlag, program_outside _ _ _ _ _ _ (Or.inl low)]
    exact progress.flagsBelow fuse (by omega)
  flagsAbove := by
    intro fuse high flag
    have next := info.flagAt_succ slot
    have order : info.flagAt (slot + 1) ≤ _ := info.flagAt_mono below
    rw [pulseFlag, program_outside _ _ _ _ _ _
      (Or.inr (by unfold regionAtomicFlagBits; omega))]
    exact progress.flagsAbove fuse high flag
  flagsPulsed := by
    intro fuse low high
    have next := info.flagAt_succ slot
    have bound := firstUsedSlot_le info sid₀
    by_cases own : fuse < info.flagAt (slot + 1)
    · have address : info.flagAt slot + (fuse - info.flagAt slot) = fuse := by
        omega
      have pulsed := pulseFlag_pair fits sid stuck slot (by omega)
        (fuse - info.flagAt slot) (by omega)
      rw [address] at pulsed
      have start : info.flagStart ≤ fuse :=
        Nat.le_trans (Nat.le_add_right _ _) low
      rw [pulsed, progress.flagsBelow fuse own,
        flagBelowFirst_blank info sid₀ fuse start high]
      rfl
    · rw [pulseFlag, program_outside _ _ _ _ _ _
        (Or.inr (by unfold regionAtomicFlagBits; omega))]
      exact progress.flagsPulsed fuse (by omega) high
  dataKept := by
    intro other outside j within
    have bound := firstUsedSlot_le info sid₀
    have start := info.dataStart_le_dataAt other
    rw [pulseFlag_data fits sid stuck slot (by omega) _ (by omega)]
    exact progress.dataKept other (by omega) j within

theorem Progress.write (fits : info.Fits arch) {sid : BitVec 2048}
    {slot : Nat} (progress : Progress info sid₀ stuck slot sid)
    (below : slot < firstUsedSlot info sid₀) :
    Progress info sid₀ stuck slot (writeSlot info sid stuck data slot) where
  flagsBelow := by
    intro fuse low
    have order := info.flagAt_mono (Nat.le_of_lt below)
    have first := fits.flagAt_first sid₀
    rw [writeSlot_flags info sid stuck data slot fuse (by omega)]
    exact progress.flagsBelow fuse low
  flagsAbove := by
    intro fuse high flag
    rw [writeSlot_flags info sid stuck data slot fuse flag]
    exact progress.flagsAbove fuse high flag
  flagsPulsed := by
    intro fuse low high
    have first := fits.flagAt_first sid₀
    rw [writeSlot_flags info sid stuck data slot fuse (by omega)]
    exact progress.flagsPulsed fuse low high
  dataKept := by
    intro other outside j within
    rw [writeSlot_other info sid stuck data slot other (by omega) j within]
    exact progress.dataKept other outside j within

theorem PassedOver.pulse (fits : info.Fits arch) {sid : BitVec 2048}
    {slot idx : Nat} (passed : PassedOver info sid₀ stuck data idx sid)
    (within : slot < info.slots) :
    PassedOver info sid₀ stuck data idx (pulseFlag info sid stuck slot) := by
  intro other from_idx below takes holds
  apply passed other from_idx below takes
  refine (holds_congr _ _ _ _ _ ?_).mp holds
  intro j _
  have start := info.dataStart_le_dataAt other
  exact pulseFlag_data fits sid stuck slot within _ (by omega)

theorem PassedOver.write {sid : BitVec 2048} {slot : Nat}
    (passed : PassedOver info sid₀ stuck data (slot + 1) sid) :
    PassedOver info sid₀ stuck data (slot + 1)
      (writeSlot info sid stuck data slot) := by
  intro other from_idx below takes holds
  apply passed other from_idx below takes
  refine (holds_congr _ _ _ _ _ ?_).mp holds
  intro j within
  exact writeSlot_other info sid stuck data slot other (by omega) j within

theorem PassedOver.extend {sid : BitVec 2048} {slot : Nat}
    (passed : PassedOver info sid₀ stuck data (slot + 1) sid)
    (here : FlagTakes info stuck slot →
      ¬ Holds sid (info.dataAt slot) info.dataBits data) :
    PassedOver info sid₀ stuck data slot sid := by
  intro other from_idx below takes
  rcases Nat.eq_or_lt_of_le from_idx with same | later
  · subst same
    exact here takes
  · exact passed other later below takes

/-- The byte that the writer reads back, in terms of the initial fuses. -/
theorem flagSilent_iff (fits : info.Fits arch) {sid : BitVec 2048}
    {slot : Nat} (progress : Progress info sid₀ stuck (slot + 1) sid)
    (below : slot < firstUsedSlot info sid₀) :
    FlagSilent info (pulseFlag info sid stuck slot) slot ↔
      ¬ FlagAnswers info sid₀ stuck slot := by
  have bound := firstUsedSlot_le info sid₀
  have first := fits.flagAt_first sid₀
  have flagInside := fits.flagInside slot (by omega)
  have pulsed := progress.pulse fits below
  have eight : 8 ≤ info.dataBits :=
    Nat.le_of_dvd fits.dataPositive fits.dataWhole
  have shown : ∀ j < 8,
      (pulseFlag info sid stuck slot).getLsbD (info.flagAt slot + j) =
        (sid₀.getLsbD (info.flagAt slot + j) ||
          (decide (info.flagAt slot + j <
              info.flagAt (firstUsedSlot info sid₀)) &&
            !stuck.getLsbD (info.flagAt slot + j))) := by
    intro j inByte
    by_cases flag : info.flagAt slot + j <
        info.flagAt (firstUsedSlot info sid₀)
    · have start : info.flagStart ≤ info.flagAt slot + j :=
        Nat.le_trans (Nat.le_add_right _ _) (Nat.le_add_right _ _)
      rw [pulsed.flagsPulsed _ (Nat.le_add_right _ _) flag,
        flagBelowFirst_blank info sid₀ _ start flag]
      simp [flag]
    · have kept :
          (pulseFlag info sid stuck slot).getLsbD (info.flagAt slot + j) =
            sid₀.getLsbD (info.flagAt slot + j) := by
        by_cases inField : info.flagAt slot + j < info.dataStart
        · exact pulsed.flagsAbove _ (Nat.le_of_not_lt flag) inField
        · -- Past the field lie the first fuses of data slot 0, which no slot
          -- above this one has touched.
          have address :
              info.flagAt slot + j =
                info.dataAt 0 + (info.flagAt slot + j - info.dataStart) := by
            unfold RegionInfo.dataAt
            omega
          rw [pulseFlag_data fits sid stuck slot (by omega) _ (by omega),
            address]
          exact progress.dataKept 0 (Or.inl (Nat.zero_lt_succ slot)) _
            (by omega)
      rw [kept]
      simp [flag]
  constructor
  · rintro silent ⟨j, inByte, answer⟩
    have zero := silent j inByte
    rw [shown j inByte] at zero
    rcases answer with burned | ⟨flag, takes⟩
    · simp [burned] at zero
    · simp [flag, takes] at zero
  · intro quiet j inByte
    rw [shown j inByte]
    cases burned : sid₀.getLsbD (info.flagAt slot + j) with
    | true => exact absurd ⟨j, inByte, Or.inl burned⟩ quiet
    | false =>
        cases takes : stuck.getLsbD (info.flagAt slot + j) with
        | true => simp
        | false =>
            by_cases flag : info.flagAt slot + j <
                info.flagAt (firstUsedSlot info sid₀)
            · exact absurd ⟨j, inByte, Or.inr ⟨flag, takes⟩⟩ quiet
            · simp [flag]

/-- A silent flag byte means in particular that the slot's own pair is stuck. -/
theorem not_flagTakes_of_silent (fits : info.Fits arch) {sid : BitVec 2048}
    {slot : Nat} (within : slot < info.slots)
    (silent : FlagSilent info (pulseFlag info sid stuck slot) slot) :
    ¬ FlagTakes info stuck slot := by
  have low := silent 0 (by decide)
  have high := silent 1 (by decide)
  rw [pulseFlag_pair fits sid stuck slot within _ (by decide)] at low high
  intro takes
  rcases takes with first | second
  · simp [first] at low
  · simp [second] at high

/-! ### The loop -/

/-- Where the writer's loop ends: on the highest acceptable slot, with its value
in place, or with no acceptable slot at all. -/
inductive LoopOutcome (info : RegionInfo) (sid₀ stuck : BitVec 2048)
    (data : List Byte) (dev : Device) (idx : Nat) (r : RegionWrite) : Prop
  | settled (slot : Nat) (sid : BitVec 2048)
      (ack : r.ack = .ok)
      (final : r.dev = dev.withSid sid)
      (below : slot < idx)
      (accepted : Accepts info sid₀ stuck data slot)
      (refused : ∀ later, slot < later → later < idx →
        ¬ Accepts info sid₀ stuck data later)
      (progress : Progress info sid₀ stuck slot sid)
      (passed : PassedOver info sid₀ stuck data (slot + 1) sid)
      (holds : Holds sid (info.dataAt slot) info.dataBits data)
  | exhausted
      (ack : r.ack = .diErr)
      (refused : ∀ slot < idx, ¬ Accepts info sid₀ stuck data slot)

/-- An outcome for the slots below `slot` is one for `slot + 1` when the slot
itself was refused. -/
theorem LoopOutcome.refuse {dev : Device} {slot : Nat} {r : RegionWrite}
    (outcome : LoopOutcome info sid₀ stuck data dev slot r)
    (refused : ¬ Accepts info sid₀ stuck data slot) :
    LoopOutcome info sid₀ stuck data dev (slot + 1) r := by
  cases outcome with
  | settled lower sid ack final below accepted above progress passed holds =>
      refine .settled lower sid ack final (by omega) accepted ?_ progress
        passed holds
      intro later after within
      rcases Nat.eq_or_lt_of_le (Nat.le_of_lt_succ within) with same | earlier
      · subst same
        exact refused
      · exact above later after earlier
  | exhausted ack above =>
      refine .exhausted ack ?_
      intro lower within
      rcases Nat.eq_or_lt_of_le (Nat.le_of_lt_succ within) with same | earlier
      · subst same
        exact refused
      · exact above lower earlier

theorem efpgWriteRegionLoop_outcome (fits : info.Fits arch) (dev : Device)
    (size : 8 * data.length = info.dataBits) (idx : Nat)
    (bounded : idx ≤ firstUsedSlot info sid₀) (tried : List Nat)
    (sid : BitVec 2048)
    (progress : Progress info sid₀ dev.stuck idx sid)
    (passed : PassedOver info sid₀ dev.stuck data idx sid) :
    LoopOutcome info sid₀ dev.stuck data dev idx
      (efpgWriteRegionLoop arch info data idx tried (dev.withSid sid)) := by
  induction idx generalizing tried sid with
  | zero =>
      exact .exhausted rfl (by intro slot within; omega)
  | succ slot ih =>
      have below : slot < firstUsedSlot info sid₀ := bounded
      have within : slot < info.slots :=
        Nat.lt_of_lt_of_le below (firstUsedSlot_le info sid₀)
      have pulsed := progress.pulse fits below
      have kept := passed.pulse fits within
      have inside := info.dataAt_inside slot within
      have array := fits.array
      rw [efpgWriteRegionLoop_step fits dev sid data size slot within]
      dsimp only
      by_cases silent : FlagSilent info (pulseFlag info sid dev.stuck slot) slot
      · rw [if_pos silent]
        have stuck := not_flagTakes_of_silent fits within silent
        have refused : ¬ Accepts info sid₀ dev.stuck data slot := fun accepts =>
          (flagSilent_iff fits progress below).mp silent accepts.1
        exact (ih (Nat.le_of_lt below) (slot :: tried) _ pulsed
          (kept.extend fun takes => absurd takes stuck)).refuse refused
      · rw [if_neg silent]
        have answers : FlagAnswers info sid₀ dev.stuck slot := by
          by_contra quiet
          exact silent ((flagSilent_iff fits progress below).mpr quiet)
        have takes_iff :
            Holds (writeSlot info (pulseFlag info sid dev.stuck slot)
                dev.stuck data slot) (info.dataAt slot) info.dataBits data ↔
              Takes sid₀ dev.stuck (info.dataAt slot) info.dataBits data := by
          rw [writeSlot, holds_program_iff_takes _ _ _ _ _ (by omega)]
          apply takes_congr
          intro j inSlot
          rw [pulseFlag_data fits sid dev.stuck slot within _
            (Nat.le_trans (info.dataStart_le_dataAt slot)
              (Nat.le_add_right _ _))]
          exact progress.dataKept slot (Or.inl (Nat.lt_succ_self slot)) j inSlot
        by_cases holds :
            Holds (writeSlot info (pulseFlag info sid dev.stuck slot)
              dev.stuck data slot) (info.dataAt slot) info.dataBits data
        · rw [if_pos holds]
          exact .settled slot _ rfl rfl (Nat.lt_succ_self slot)
            ⟨answers, takes_iff.mp holds⟩
            (by intro later after before; omega)
            (pulsed.write fits below) kept.write holds
        · rw [if_neg holds]
          have refused : ¬ Accepts info sid₀ dev.stuck data slot :=
            fun accepts => holds (takes_iff.mpr accepts.2)
          exact (ih (Nat.le_of_lt below) (slot :: tried) _
            (pulsed.write fits below)
            (kept.write.extend fun _ => holds)).refuse refused

/-! ### The reader after the writer -/

/-- After the writer a slot it dealt with shows a flag exactly when one of its
flag fuses takes. -/
theorem slotUsed_after_iff {sid : BitVec 2048} {slot : Nat}
    (progress : Progress info sid₀ stuck slot sid) (other : Nat)
    (from_slot : slot ≤ other) (below : other < firstUsedSlot info sid₀) :
    slotUsed info sid other = true ↔ FlagTakes info stuck other := by
  have low := info.flagAt_mono from_slot
  have next := info.flagAt_succ other
  have high : info.flagAt (other + 1) ≤ _ := info.flagAt_mono below
  unfold slotUsed FlagTakes
  rw [progress.flagsPulsed _ low (by omega),
    progress.flagsPulsed _ (by omega) (by omega), Bool.or_eq_true]
  simp

theorem slotUsed_before {sid : BitVec 2048} {slot : Nat}
    (progress : Progress info sid₀ stuck slot sid) (other : Nat)
    (before : other < slot) (below : slot < firstUsedSlot info sid₀) :
    slotUsed info sid other = false := by
  have next := info.flagAt_succ other
  have order : info.flagAt (other + 1) ≤ _ := info.flagAt_mono before
  have blank := slotUsed_below_first info sid₀ other (by omega)
  unfold slotUsed at blank ⊢
  rw [progress.flagsBelow _ (by omega), progress.flagsBelow _ (by omega)]
  exact blank

theorem slotUsed_first_kept (fits : info.Fits arch) {sid : BitVec 2048}
    {slot : Nat} (progress : Progress info sid₀ stuck slot sid)
    (present : firstUsedSlot info sid₀ < info.slots) :
    slotUsed info sid (firstUsedSlot info sid₀) = true := by
  have inside := fits.flagInside _ present
  have used := slotUsed_first info sid₀ present
  unfold slotUsed at used ⊢
  rw [progress.flagsAbove _ (Nat.le_refl _) (by omega),
    progress.flagsAbove _ (by omega) (by omega)]
  exact used

/-- The reader returns the first used slot of what the writer left. -/
theorem efpgReadRegion_eq (fits : info.Fits arch) (dev : Device)
    (available : dev.available = true)
    (present : firstUsedSlot info dev.sid < info.slots) :
    efpgReadRegion arch info dev =
      { ack := .ok
        data := readBytes dev.sid
          (info.dataAt (firstUsedSlot info dev.sid)) info.dataBits
        idx := firstUsedSlot info dev.sid
        dev := dev.withSid dev.sid } :=
  efpgReadRegion_first fits dev available _ present
    (slotUsed_below_first info dev.sid) (slotUsed_first info dev.sid present)

/-- A read of a region in state `dev` yields `data` from one of its slots. -/
def ReadsBack (arch : ChipArchVer) (info : RegionInfo) (data : List Byte)
    (dev : Device) : Prop :=
  (efpgReadRegion arch info dev).ack = .ok ∧
    (efpgReadRegion arch info dev).data = data ∧
    (efpgReadRegion arch info dev).idx < info.slots

theorem readsBack_iff (fits : info.Fits arch) (dev : Device)
    (available : dev.available = true)
    (size : 8 * data.length = info.dataBits) :
    ReadsBack arch info data dev ↔
      firstUsedSlot info dev.sid < info.slots ∧
        Holds dev.sid (info.dataAt (firstUsedSlot info dev.sid))
          info.dataBits data := by
  by_cases present : firstUsedSlot info dev.sid < info.slots
  · have inside := info.dataAt_inside _ present
    have array := fits.array
    unfold ReadsBack
    rw [efpgReadRegion_eq fits dev available present,
      ← readBytes_eq_iff_holds _ _ _ _ size (by omega)]
    simp [present]
  · constructor
    · rintro ⟨succeeded, _, slot⟩
      have clear : ∀ other < info.slots,
          slotUsed info dev.sid other = false := fun other within =>
        slotUsed_below_first info dev.sid other (by omega)
      have beyond := efpgReadRegion_blank fits dev available clear succeeded
      omega
    · rintro ⟨there, _⟩
      exact absurd there present

/-- What the writer settled on is read back exactly when its flag shows, or when
nothing shows before the first used slot and that slot holds the value. -/
theorem holds_after_iff (fits : info.Fits arch) {sid : BitVec 2048}
    {slot : Nat} (below : slot < firstUsedSlot info sid₀)
    (progress : Progress info sid₀ stuck slot sid)
    (passed : PassedOver info sid₀ stuck data (slot + 1) sid)
    (holds : Holds sid (info.dataAt slot) info.dataBits data) :
    (firstUsedSlot info sid < info.slots ∧
        Holds sid (info.dataAt (firstUsedSlot info sid)) info.dataBits data) ↔
      FlagTakes info stuck slot ∨
        (firstUsedSlot info sid₀ < info.slots ∧
          (∀ other, slot < other → other < firstUsedSlot info sid₀ →
            ¬ FlagTakes info stuck other) ∧
          Holds sid₀ (info.dataAt (firstUsedSlot info sid₀)) info.dataBits
            data) := by
  have bound := firstUsedSlot_le info sid₀
  have dataKept :
      Holds sid (info.dataAt (firstUsedSlot info sid₀)) info.dataBits data ↔
        Holds sid₀ (info.dataAt (firstUsedSlot info sid₀)) info.dataBits
          data :=
    holds_congr _ _ _ _ _ (progress.dataKept _ (Or.inr (Nat.le_refl _)))
  -- The scan of the final fuses cannot stop below the settled slot.
  have notBefore : slot ≤ firstUsedSlot info sid := by
    by_contra before
    have shown := slotUsed_first info sid (by omega)
    rw [slotUsed_before progress _ (by omega) below] at shown
    contradiction
  constructor
  · rintro ⟨present, readHolds⟩
    by_cases takes : FlagTakes info stuck slot
    · exact Or.inl takes
    · have shown := slotUsed_first info sid present
      have notSlot : firstUsedSlot info sid ≠ slot := by
        intro same
        rw [same] at shown
        exact takes ((slotUsed_after_iff progress slot (Nat.le_refl _)
          below).mp shown)
      have notPassed : firstUsedSlot info sid₀ ≤ firstUsedSlot info sid := by
        by_contra earlier
        exact passed _ (by omega) (by omega)
          ((slotUsed_after_iff progress _ notBefore (by omega)).mp shown)
          readHolds
      have same : firstUsedSlot info sid = firstUsedSlot info sid₀ := by
        by_contra different
        have blank := slotUsed_below_first info sid
          (firstUsedSlot info sid₀) (by omega)
        rw [slotUsed_first_kept fits progress (by omega)] at blank
        contradiction
      refine Or.inr ⟨by omega, ?_, ?_⟩
      · intro other after before otherTakes
        have blank := slotUsed_below_first info sid other (by omega)
        rw [(slotUsed_after_iff progress other (by omega) before).mpr
          otherTakes] at blank
        contradiction
      · rw [same] at readHolds
        exact dataKept.mp readHolds
  · rintro (takes | ⟨present, quiet, oldHolds⟩)
    · have shown :=
        (slotUsed_after_iff progress slot (Nat.le_refl _) below).mpr takes
      have same : firstUsedSlot info sid = slot := by
        by_contra different
        have blank := slotUsed_below_first info sid slot (by omega)
        rw [shown] at blank
        contradiction
      rw [same]
      exact ⟨by omega, holds⟩
    · by_cases takes : FlagTakes info stuck slot
      · have shown :=
          (slotUsed_after_iff progress slot (Nat.le_refl _) below).mpr takes
        have same : firstUsedSlot info sid = slot := by
          by_contra different
          have blank := slotUsed_below_first info sid slot (by omega)
          rw [shown] at blank
          contradiction
        rw [same]
        exact ⟨by omega, holds⟩
      · have kept := slotUsed_first_kept fits progress present
        have same : firstUsedSlot info sid = firstUsedSlot info sid₀ := by
          by_contra different
          rcases Nat.lt_or_gt_of_ne different with earlier | later
          · have shown := slotUsed_first info sid (by omega)
            have otherTakes :=
              (slotUsed_after_iff progress _ notBefore earlier).mp shown
            rcases Nat.eq_or_lt_of_le notBefore with here | after
            · rw [← here] at otherTakes
              exact takes otherTakes
            · exact quiet _ after earlier otherTakes
          · have blank := slotUsed_below_first info sid _ later
            rw [kept] at blank
            contradiction
        rw [same]
        exact ⟨present, dataKept.mpr oldHolds⟩

theorem efpgWriteRegion_outcome (fits : info.Fits arch) (dev : Device)
    (available : dev.available = true)
    (size : 8 * data.length = info.dataBits) :
    LoopOutcome info dev.sid dev.stuck data dev (firstUsedSlot info dev.sid)
      (efpgWriteRegion arch info data dev) := by
  rw [efpgWriteRegion_eq fits dev available]
  exact efpgWriteRegionLoop_outcome fits dev size _ (Nat.le_refl _) [] _
    (Progress.initial info dev.sid dev.stuck)
    (by intro slot from_first below; omega)

/-- A successful write is read back exactly when the slot it settled on is
visible to the reader. -/
theorem region_readsBack_iff (fits : info.Fits arch) (dev : Device)
    (available : dev.available = true)
    (size : 8 * data.length = info.dataBits) :
    ((efpgWriteRegion arch info data dev).ack = .ok →
        ReadsBack arch info data (efpgWriteRegion arch info data dev).dev) ↔
      SettledSlotVisible info dev.sid dev.stuck data := by
  cases efpgWriteRegion_outcome fits dev available size with
  | settled slot sid ack final below accepted refused progress passed holds =>
      have settles : SettlesOn info dev.sid dev.stuck data slot :=
        ⟨below, accepted, refused⟩
      have unique : ∀ other,
          SettlesOn info dev.sid dev.stuck data other → other = slot := by
        rintro other ⟨otherBelow, otherAccepted, otherRefused⟩
        by_contra different
        rcases Nat.lt_or_gt_of_ne different with lower | higher
        · exact otherRefused slot lower below accepted
        · exact refused other higher otherBelow otherAccepted
      have after := holds_after_iff fits below progress passed holds
      rw [final, readsBack_iff fits (dev.withSid sid) rfl size,
        Device.withSid_sid, after]
      constructor
      · intro visible other otherSettles
        rw [unique other otherSettles]
        exact visible ack
      · intro visible _
        exact visible slot settles
  | exhausted ack refused =>
      constructor
      · rintro _ slot ⟨below, accepted, _⟩
        exact absurd accepted (refused slot below)
      · intro _ succeeded
        rw [ack] at succeeded
        contradiction

/-! ### Which fuses the writer touches -/

def RegionInfo.InFlags (info : RegionInfo) (fuse : Nat) : Prop :=
  info.flagStart ≤ fuse ∧ fuse < info.dataStart

def RegionInfo.InSlot (info : RegionInfo) (slot fuse : Nat) : Prop :=
  info.dataAt slot ≤ fuse ∧ fuse < info.dataAt slot + info.dataBits

/-- From `sid` on, the slots below `idx` were tried on top of `tried`, and no
fuse changed outside the flag field and the slots tried. -/
structure Framed (info : RegionInfo) (sid : BitVec 2048) (idx : Nat)
    (tried : List Nat) (r : RegionWrite) : Prop where
  members : ∀ slot ∈ r.tried, slot ∈ tried ∨ slot < idx
  kept : ∀ slot ∈ tried, slot ∈ r.tried
  frame : ∀ fuse, r.dev.sid.getLsbD fuse ≠ sid.getLsbD fuse →
    info.InFlags fuse ∨ ∃ slot ∈ r.tried, info.InSlot slot fuse

/-- One turn that stays inside the flags and its own slot composes. -/
theorem Framed.turn {sid middle : BitVec 2048} {slot : Nat}
    {tried : List Nat} {r : RegionWrite}
    (later : Framed info middle slot (slot :: tried) r)
    (own : ∀ fuse, middle.getLsbD fuse ≠ sid.getLsbD fuse →
      info.InFlags fuse ∨ info.InSlot slot fuse) :
    Framed info sid (slot + 1) tried r where
  members := by
    intro other member
    rcases later.members other member with known | lower
    · rcases List.mem_cons.mp known with here | earlier
      · exact Or.inr (by omega)
      · exact Or.inl earlier
    · exact Or.inr (by omega)
  kept := fun other member => later.kept other (List.mem_cons_of_mem slot member)
  frame := by
    intro fuse changed
    by_cases same : r.dev.sid.getLsbD fuse = middle.getLsbD fuse
    · rw [same] at changed
      rcases own fuse changed with flag | slotFuse
      · exact Or.inl flag
      · exact Or.inr ⟨slot, later.kept slot List.mem_cons_self, slotFuse⟩
    · exact later.frame fuse same

theorem pulseFlag_frame (fits : info.Fits arch) (sid stuck : BitVec 2048)
    (slot : Nat) (within : slot < info.slots) (fuse : Nat)
    (changed :
      (pulseFlag info sid stuck slot).getLsbD fuse ≠ sid.getLsbD fuse) :
    info.InFlags fuse := by
  have below := fits.flagInside slot within
  have start : info.flagStart ≤ info.flagAt slot := Nat.le_add_right _ _
  unfold RegionInfo.InFlags
  by_contra outside
  apply changed
  apply program_outside
  unfold regionAtomicFlagBits
  omega

theorem writeSlot_frame (info : RegionInfo) (sid stuck : BitVec 2048)
    (data : List Byte) (slot fuse : Nat)
    (changed :
      (writeSlot info sid stuck data slot).getLsbD fuse ≠ sid.getLsbD fuse) :
    info.InSlot slot fuse := by
  unfold RegionInfo.InSlot
  by_contra outside
  apply changed
  apply program_outside
  omega

theorem efpgWriteRegionLoop_frame (fits : info.Fits arch) (dev : Device)
    (size : 8 * data.length = info.dataBits) (idx : Nat)
    (bounded : idx ≤ info.slots) (tried : List Nat) (sid : BitVec 2048) :
    Framed info sid idx tried
      (efpgWriteRegionLoop arch info data idx tried (dev.withSid sid)) := by
  induction idx generalizing tried sid with
  | zero =>
      exact
        { members := fun slot member => Or.inl member
          kept := fun slot member => member
          frame := fun fuse changed => absurd rfl changed }
  | succ slot ih =>
      have within : slot < info.slots := bounded
      let pulsed := pulseFlag info sid dev.stuck slot
      let written := writeSlot info pulsed dev.stuck data slot
      have ownWritten : ∀ fuse,
          written.getLsbD fuse ≠ sid.getLsbD fuse →
            info.InFlags fuse ∨ info.InSlot slot fuse := by
        intro fuse changed
        by_cases same : written.getLsbD fuse = pulsed.getLsbD fuse
        · rw [same] at changed
          exact Or.inl (pulseFlag_frame fits sid _ slot within fuse changed)
        · exact Or.inr (writeSlot_frame info pulsed _ data slot fuse same)
      rw [efpgWriteRegionLoop_step fits dev sid data size slot within]
      dsimp only
      split
      · exact (ih (Nat.le_of_lt within) (slot :: tried) pulsed).turn
          fun fuse changed =>
            Or.inl (pulseFlag_frame fits sid _ slot within fuse changed)
      · split
        · have done : Framed info written slot (slot :: tried)
              { ack := .ok, tried := slot :: tried
                dev := dev.withSid written } :=
            { members := fun other member => Or.inl member
              kept := fun other member => member
              frame := fun fuse changed => absurd rfl changed }
          exact done.turn ownWritten
        · exact (ih (Nat.le_of_lt within) (slot :: tried) written).turn
            ownWritten

theorem efpgWriteRegion_frame (fits : info.Fits arch) (dev : Device)
    (size : 8 * data.length = info.dataBits) :
    Framed info dev.sid info.slots []
      (efpgWriteRegion arch info data dev) := by
  cases available : dev.available with
  | false =>
      rw [efpgWriteRegion_refused dev data available]
      exact
        { members := fun slot member => Or.inl member
          kept := fun slot member => member
          frame := fun fuse changed => absurd rfl changed }
  | true =>
      have bound := firstUsedSlot_le info dev.sid
      rw [efpgWriteRegion_eq fits dev available]
      have framed : Framed info dev.sid (firstUsedSlot info dev.sid) []
          (efpgWriteRegionLoop arch info data (firstUsedSlot info dev.sid) []
            (dev.withSid dev.sid)) :=
        efpgWriteRegionLoop_frame fits dev size _ bound [] dev.sid
      exact
        { members := fun slot member => by
            rcases framed.members slot member with known | lower
            · exact Or.inl known
            · exact Or.inr (by omega)
          kept := framed.kept
          frame := framed.frame }

end Loop

/-! ### The MAC region -/

theorem macAddress_size (arch : ChipArchVer) (addr : BitVec 48) :
    8 * (toBytes addr).length = (macRegion arch).dataBits := by
  rw [toBytes_length]
  cases arch <;> rfl

/-- A successful write is followed by a successful read of the same address from
one of the region's slots; the slots tried are slots of the region; no fuse
changes outside the flag field and the slots tried. -/
structure MacWriteReadAgree (arch : ChipArchVer) (dev : Device)
    (addr : BitVec 48) : Prop where
  readsBack :
    (efpgWriteMac arch (toBytes addr) dev).ack = .ok →
      ReadsBack arch (macRegion arch) (toBytes addr)
        (efpgWriteMac arch (toBytes addr) dev).dev
  slots : ∀ slot ∈ (efpgWriteMac arch (toBytes addr) dev).tried,
    slot < (macRegion arch).flagBits / 2
  frame : ∀ fuse,
    (efpgWriteMac arch (toBytes addr) dev).dev.sid.getLsbD fuse ≠
        dev.sid.getLsbD fuse →
      (macRegion arch).InFlags fuse ∨
        ∃ slot ∈ (efpgWriteMac arch (toBytes addr) dev).tried,
          (macRegion arch).InSlot slot fuse

/-- For every fuse content, every set of stuck fuses and every address, the MAC
writer and reader agree exactly when the slot the writer settles on is visible
to the reader; a driver that is not available does nothing. -/
theorem macWriteReadAgree_iff (arch : ChipArchVer) (dev : Device)
    (addr : BitVec 48) :
    MacWriteReadAgree arch dev addr ↔
      (dev.available = true →
        SettledSlotVisible (macRegion arch) dev.sid dev.stuck
          (toBytes addr)) := by
  have fits := macRegion_fits arch
  have size := macAddress_size arch addr
  have framed := efpgWriteRegion_frame fits dev size
  constructor
  · intro agree available
    exact (region_readsBack_iff fits dev available size).mp agree.readsBack
  · intro visible
    refine
      { readsBack := ?_
        slots := ?_
        frame := framed.frame }
    · intro succeeded
      cases available : dev.available with
      | false =>
          have refused :
              efpgWriteRegion arch (macRegion arch) (toBytes addr) dev = _ :=
            efpgWriteRegion_refused dev (toBytes addr) available
          rw [efpgWriteMac, refused] at succeeded
          contradiction
      | true =>
          exact (region_readsBack_iff fits dev available size).mpr
            (visible available) succeeded
    · intro slot member
      rcases framed.members slot member with known | lower
      · contradiction
      · exact lower

/-- Slot 2 holds the address `01:02:03:04:05:06` and both flag fuses of slot 1
are stuck. -/
def stuckFlagDevice : Device :=
  { state := .ready
    hfClock := hoscClock24M
    sid := BitVec.twoPow 2048 526 ||| BitVec.twoPow 2048 527 |||
      ((0x060504030201#48).setWidth 2048 <<< 624)
    stuck := BitVec.twoPow 2048 524 ||| BitVec.twoPow 2048 525 }

/-- Writing a new address there reports success, and the old one is read. -/
theorem mac_stuckFlag_disagrees :
    (efpgWriteMac .two (toBytes 0x090909090909#48) stuckFlagDevice).ack =
        .ok ∧
      (efpgReadMac .two
          (efpgWriteMac .two (toBytes 0x090909090909#48)
            stuckFlagDevice).dev).data =
        toBytes 0x060504030201#48 ∧
      ¬ MacWriteReadAgree .two stuckFlagDevice 0x090909090909#48 := by
  have written :
      (efpgWriteMac .two (toBytes 0x090909090909#48) stuckFlagDevice).ack =
        .ok := by decide +kernel
  have readOld :
      (efpgReadMac .two
          (efpgWriteMac .two (toBytes 0x090909090909#48)
            stuckFlagDevice).dev).data =
        toBytes 0x060504030201#48 := by decide +kernel
  refine ⟨written, readOld, ?_⟩
  intro agree
  have sameData := (agree.readsBack written).2.1
  change (efpgReadMac .two _).data = _ at sameData
  rw [readOld] at sameData
  exact absurd sameData (by decide +kernel)

end XR872.Efpg
