/-
Programming pages.

What does not fit the chip should be rejected, and what does be programmed page
by page. The sum of address and size is cut to 32 bits, a page that fails leaves
the driver open, and the wait behind a page overwrites what the one before it
returned.
-/

import XR872.Flash.Device
import XR872.Library.Pages

namespace XR872.Flash

open BitView
open Pages

def programs (acts : List FlashAct) : List (Nat × List Byte) :=
  acts.filterMap fun
    | .pageProgram _ addr data => some (addr, data)
    | _ => none

def programRange (program : Nat × List Byte) : Nat × Nat :=
  (program.1, program.2.length)

/-- What a write keeps, from what is returned and what has been done. -/
structure WritePromise (dev : FlashDev) (answers : FlashAnswers)
    (data : Nat → Byte) (addr size : Nat)
    (result : HalStatus × List FlashAct) : Prop where
  rejected : dev.chip.mSize.toNat < addr + size → result = (halInvalid, [])
  covered : dev.chip.pageProgram = true → addr + size ≤ dev.chip.mSize.toNat →
    Tiles addr ((programs result.2).map programRange) (addr + size) ∧
      (programs result.2).flatMap Prod.snd = (List.range' 0 size).map data
  onePage : addr + size ≤ dev.chip.mSize.toNat →
    ∀ program ∈ programs result.2,
      OnePage dev.chip.mPageSize (programRange program)
  succeeded : result.1 = halOk → ∀ turn < (programs result.2).length,
    0 ≤ answers.pageProgram turn ∧ 0 ≤ answers.waitCompl turn
  closed : Balanced result.2

/-- The sum does not wrap back into the chip; no page that the range has fails;
and if the wait behind a page fails, the last one is not successful. -/
def CleanWrite (dev : FlashDev) (answers : FlashAnswers) (addr size : Nat) :
    Prop :=
  dev.chip.pageProgram = true →
    (dev.chip.mSize.toNat < addr + size →
      dev.chip.mSize.toNat < (addr + size) % 2 ^ 32) ∧
    (addr + size ≤ dev.chip.mSize.toNat →
      (∀ turn < (pages dev.chip.mPageSize addr size).length,
        0 ≤ answers.pageProgram turn) ∧
      ((∀ turn, turn + 1 < (pages dev.chip.mPageSize addr size).length →
          0 ≤ answers.waitCompl turn) ∨
        answers.waitCompl ((pages dev.chip.mPageSize addr size).length - 1) ≠
          halOk))

/-! ### Acts -/

theorem programs_append (first second : List FlashAct) :
    programs (first ++ second) = programs first ++ programs second :=
  List.filterMap_append

theorem balanced_append {first second : List FlashAct}
    (front : Balanced first) : Balanced (first ++ second) ↔ Balanced second := by
  unfold Balanced at front ⊢
  rw [List.count_append, List.count_append, front]
  exact Nat.add_left_cancel_iff

theorem range_shifted (data : Nat → Byte) (start ptr count : Nat) :
    (List.range' (start + ptr) count).map (fun place => data (place - start)) =
      (List.range' ptr count).map data := by
  apply List.ext_getElem
  · rw [List.length_map, List.length_map, List.length_range',
      List.length_range']
  · intro index _ _
    rw [List.getElem_map, List.getElem_map, List.getElem_range',
      List.getElem_range', Nat.one_mul, Nat.add_assoc, Nat.add_sub_cancel_left]

/-! ### The loop -/

section

variable (dev : FlashDev) (answers : FlashAnswers) (data : Nat → Byte)

def pageActs (address ptr count : Nat) : List FlashAct :=
  [.open_, .writeEnable,
    .pageProgram dev.wmode address ((List.range' ptr count).map data),
    .writeDisable]

theorem writeLoop_page (turn : Nat) (ret : HalStatus) (address ptr : Nat)
    {left : Nat} (some : 0 < left) (good : 0 ≤ answers.pageProgram turn) :
    let ppSize := min left (dev.chip.mPageSize - address % dev.chip.mPageSize)
    let rest := writeLoop dev answers data (turn + 1) (answers.waitCompl turn)
      ((address + ppSize) % 2 ^ 32) (ptr + ppSize) (left - ppSize)
    writeLoop dev answers data turn ret address ptr left =
      (rest.1, pageActs dev data address ptr ppSize ++ [.waitCompl, .close] ++
        rest.2) := by
  dsimp only
  rw [writeLoop, if_pos some]
  dsimp only
  rw [if_neg (Int.not_lt.mpr good)]
  rfl

theorem writeLoop_failing (turn : Nat) (ret : HalStatus) (address ptr : Nat)
    {left : Nat} (some : 0 < left) (bad : answers.pageProgram turn < 0) :
    writeLoop dev answers data turn ret address ptr left =
      (answers.pageProgram turn, pageActs dev data address ptr
        (min left (dev.chip.mPageSize - address % dev.chip.mPageSize))) := by
  rw [writeLoop, if_pos some]
  dsimp only
  rw [if_pos bad]
  rfl

theorem writeLoop_none (turn : Nat) (ret : HalStatus) (address ptr : Nat) :
    writeLoop dev answers data turn ret address ptr 0 = (ret, []) := by
  rw [writeLoop, if_neg (Nat.lt_irrefl 0)]

theorem pageActs_closed (address ptr count : Nat) :
    Balanced (pageActs dev data address ptr count ++ [.waitCompl, .close]) := rfl

theorem pageActs_open (address ptr count : Nat) :
    ¬ Balanced (pageActs dev data address ptr count) := by
  intro closed
  cases closed

theorem writeLoop_open (turn : Nat) (ret : HalStatus) (address ptr left : Nat)
    (inside : address + left ≤ 2 ^ 32)
    (bad : ∃ index < (pages dev.chip.mPageSize address left).length,
      answers.pageProgram (turn + index) < 0) :
    ¬ Balanced (writeLoop dev answers data turn ret (address % 2 ^ 32) ptr
      left).2 := by
  induction left using Nat.strong_induction_on generalizing turn ret address
    ptr with
  | h left ih =>
      obtain ⟨index, within, fails⟩ := bad
      rcases Nat.eq_zero_or_pos left with rfl | some
      · rw [pages_none] at within
        exact absurd within (Nat.not_lt_zero index)
      · rw [Nat.mod_eq_of_lt (by omega : address < 2 ^ 32)]
        by_cases bad : answers.pageProgram turn < 0
        · rw [writeLoop_failing dev answers data turn ret address ptr some bad]
          exact pageActs_open dev data address ptr _
        · have piece := piece_some dev.chip.paged address some
          rw [writeLoop_page dev answers data turn ret address ptr some
            (Int.not_lt.mp bad)]
          dsimp only
          rw [balanced_append (pageActs_closed dev data address ptr _)]
          rw [pages_some dev.chip.paged address some, List.length_cons] at within
          cases index with
          | zero => exact absurd fails bad
          | succ index =>
              exact ih _ (by omega) _ _ _ _ (by omega)
                ⟨index, Nat.lt_of_succ_lt_succ within,
                  by rwa [Nat.add_assoc, Nat.add_comm 1]⟩

def lastWait (turn : Nat) (ret : HalStatus) (count : Nat) : HalStatus :=
  match count with
  | 0 => ret
  | count + 1 => answers.waitCompl (turn + count)

theorem writeLoop_done (start turn : Nat) (ret : HalStatus)
    (address left : Nat) (behind : start ≤ address)
    (inside : address + left ≤ 2 ^ 32)
    (good : ∀ index < (pages dev.chip.mPageSize address left).length,
      0 ≤ answers.pageProgram (turn + index)) :
    let result := writeLoop dev answers data turn ret (address % 2 ^ 32)
      (address - start) left
    result.1 = lastWait answers turn ret
        (pages dev.chip.mPageSize address left).length ∧
      Balanced result.2 ∧
      programs result.2 = (pages dev.chip.mPageSize address left).map
        fun piece => (piece.1, (List.range' piece.1 piece.2).map
          fun place => data (place - start)) := by
  dsimp only
  induction left using Nat.strong_induction_on generalizing turn ret
    address with
  | h left ih =>
      rcases Nat.eq_zero_or_pos left with rfl | some
      · rw [pages_none, writeLoop_none]
        exact ⟨rfl, rfl, rfl⟩
      · have piece := piece_some dev.chip.paged address some
        rw [pages_some dev.chip.paged address some, List.length_cons] at good ⊢
        have next := ih
          (left - min left (dev.chip.mPageSize - address % dev.chip.mPageSize))
          (by omega) (turn + 1) (answers.waitCompl turn)
          (address +
            min left (dev.chip.mPageSize - address % dev.chip.mPageSize))
          (by omega) (by omega) (fun index within => by
            have later := good (index + 1) (Nat.succ_lt_succ within)
            rwa [Nat.add_assoc, Nat.add_comm 1])
        have ptr : address +
            min left (dev.chip.mPageSize - address % dev.chip.mPageSize) -
              start = address - start +
            min left (dev.chip.mPageSize - address % dev.chip.mPageSize) := by
          omega
        rw [ptr] at next
        rw [Nat.mod_eq_of_lt (by omega : address < 2 ^ 32),
          writeLoop_page dev answers data turn ret address _ some
            (good 0 (Nat.succ_pos _))]
        refine ⟨?_, ?_, ?_⟩
        · rw [next.1]
          cases (pages dev.chip.mPageSize _ _).length with
          | zero => rfl
          | succ count =>
              change answers.waitCompl (turn + 1 + count) =
                answers.waitCompl (turn + (count + 1))
              rw [Nat.add_assoc, Nat.add_comm 1]
        · exact (balanced_append
            (pageActs_closed dev data address (address - start) _)).mpr next.2.1
        · rw [programs_append, next.2.2, List.map_cons]
          have shifted := range_shifted data start (address - start)
            (min left (dev.chip.mPageSize - address % dev.chip.mPageSize))
          rw [Nat.add_sub_of_le behind] at shifted
          rw [shifted]
          rfl

theorem writeLoop_acts (turn : Nat) (ret : HalStatus) (address ptr : Nat)
    {left : Nat} (some : 0 < left) :
    (writeLoop dev answers data turn ret address ptr left).2 ≠ [] := by
  by_cases bad : answers.pageProgram turn < 0
  · rw [writeLoop_failing dev answers data turn ret address ptr some bad]
    exact List.cons_ne_nil _ _
  · rw [writeLoop_page dev answers data turn ret address ptr some
      (Int.not_lt.mp bad)]
    exact List.cons_ne_nil _ _

/-! ### The call -/

variable (addr size : BitVec 32)

/-- A call that is rejected keeps everything, unless there was something to
do. -/
theorem rejected_writePromise (none : dev.chip.pageProgram = true →
      addr.toNat + size.toNat ≤ dev.chip.mSize.toNat → size.toNat = 0) :
    WritePromise dev answers data addr.toNat size.toNat (halInvalid, []) where
  rejected _ := rfl
  covered programmed inside := by
    rw [none programmed inside]
    exact ⟨rfl, rfl⟩
  onePage _ program there := absurd there List.not_mem_nil
  succeeded impossible := absurd impossible (by decide)
  closed := rfl

theorem done_writePromise_iff
    (inside : addr.toNat + size.toNat ≤ dev.chip.mSize.toNat)
    (some : 0 < size.toNat)
    (good : ∀ turn < (pages dev.chip.mPageSize addr.toNat size.toNat).length,
      0 ≤ answers.pageProgram turn) :
    WritePromise dev answers data addr.toNat size.toNat
        (writeLoop dev answers data 0 halError addr.toNat 0 size.toNat) ↔
      ((∀ turn, turn + 1 <
            (pages dev.chip.mPageSize addr.toNat size.toNat).length →
          0 ≤ answers.waitCompl turn) ∨
        answers.waitCompl
          ((pages dev.chip.mPageSize addr.toNat size.toNat).length - 1) ≠
            halOk) := by
  have room : addr.toNat + size.toNat ≤ 2 ^ 32 :=
    Nat.le_trans inside (Nat.le_of_lt dev.chip.mSize.isLt)
  have done := writeLoop_done dev answers data addr.toNat 0 halError addr.toNat
    size.toNat (Nat.le_refl _) room (by
      intro index within
      rw [Nat.zero_add]
      exact good index within)
  dsimp only at done
  rw [Nat.mod_eq_of_lt addr.isLt, Nat.sub_self] at done
  obtain ⟨returned, closed, programmed⟩ := done
  have tiles := tiles_pages dev.chip.paged addr.toNat size.toNat
  have pieces := onePage_pages dev.chip.paged addr.toNat size.toNat
  have count : ∃ count, (pages dev.chip.mPageSize addr.toNat
      size.toNat).length = count + 1 :=
    ⟨_, congrArg List.length (pages_some dev.chip.paged addr.toNat some)⟩
  have content := tiles.content fun place => data (place - addr.toNat)
  have shifted := range_shifted data addr.toNat 0 size.toNat
  rw [Nat.add_zero] at shifted
  rw [Nat.add_sub_cancel_left, shifted] at content
  revert returned closed programmed
  generalize writeLoop dev answers data 0 halError addr.toNat 0 size.toNat =
    result
  generalize pages dev.chip.mPageSize addr.toNat size.toNat = ranges at *
  intro returned closed programmed
  have length : (programs result.2).length = ranges.length := by
    rw [programmed, List.length_map]
  have same : (programs result.2).map programRange = ranges := by
    rw [programmed, List.map_map]
    refine (List.map_congr_left fun piece _ => ?_).trans (List.map_id ranges)
    unfold programRange
    dsimp only [Function.comp]
    rw [List.length_map, List.length_range']
    rfl
  obtain ⟨last, count⟩ := count
  rw [count] at returned
  change result.1 = answers.waitCompl (0 + last) at returned
  rw [Nat.zero_add] at returned
  rw [count, Nat.add_sub_cancel]
  constructor
  · intro promise
    by_cases ok : answers.waitCompl last = halOk
    · refine .inl fun turn within => ?_
      exact (promise.succeeded (returned.trans ok) turn (by omega)).2
    · exact .inr ok
  · intro waits
    refine ⟨fun beyond => absurd inside (Nat.not_le_of_lt beyond), fun _ _ => ?_,
      fun _ => ?_, fun ok turn within => ?_, closed⟩
    · rw [same, programmed, List.flatMap_map]
      exact ⟨tiles, content⟩
    · rw [← List.forall_mem_map (P := OnePage dev.chip.mPageSize), same]
      exact pieces
    · rw [length, count] at within
      refine ⟨good turn (by omega), ?_⟩
      rw [returned] at ok
      rcases waits with each | notOk
      · rcases Nat.lt_or_ge turn last with before | here
        · exact each turn (by omega)
        · obtain rfl : turn = last := by omega
          rw [ok]
          exact Int.le_refl 0
      · exact absurd ok notOk

end

/-- A write keeps what it should exactly if it is clean. -/
theorem writePromise_iff_clean (dev : FlashDev) (answers : FlashAnswers)
    (data : Nat → Byte) (addr size : BitVec 32) :
    WritePromise dev answers data addr.toNat size.toNat
        (halFlashWrite dev answers data addr size) ↔
      CleanWrite dev answers addr.toNat size.toNat := by
  have sum : (addr + size).toNat = (addr.toNat + size.toNat) % 2 ^ 32 :=
    BitVec.toNat_add addr size
  have empty : size = 0 ↔ size.toNat = 0 :=
    (BitVec.toNat_eq (x := size) (y := 0)).trans Iff.rfl
  have short := addr.isLt
  have fits := dev.chip.mSize.isLt
  unfold halFlashWrite
  by_cases programmed : dev.chip.pageProgram = true
  · by_cases inside : addr.toNat + size.toNat ≤ dev.chip.mSize.toNat
    · rcases Nat.eq_zero_or_pos size.toNat with none | some
      · rw [if_pos (.inr (.inl (empty.mpr none)))]
        refine iff_of_true
          (rejected_writePromise dev answers data addr size fun _ _ => none) ?_
        intro _
        rw [none, pages_none]
        exact ⟨fun beyond => absurd beyond (by omega), fun _ =>
          ⟨fun turn impossible => absurd impossible (Nat.not_lt_zero turn),
            .inl fun turn impossible =>
              absurd impossible (Nat.not_lt_zero (turn + 1))⟩⟩
      · have accepted : ¬ (dev.chip.pageProgram = false ∨ size = 0 ∨
            dev.chip.mSize < addr + size) := by
          rintro (missing | none | beyond)
          · rw [programmed] at missing
            cases missing
          · exact absurd (empty.mp none) (Nat.ne_of_gt some)
          · rw [BitVec.lt_def, sum] at beyond
            omega
        rw [if_neg accepted]
        unfold CleanWrite
        by_cases good : ∀ turn <
            (pages dev.chip.mPageSize addr.toNat size.toNat).length,
            0 ≤ answers.pageProgram turn
        · rw [done_writePromise_iff dev answers data addr size inside some good]
          exact ⟨fun waits _ => ⟨fun beyond => absurd beyond (by omega),
              fun _ => ⟨good, waits⟩⟩,
            fun clean => ((clean programmed).2 inside).2⟩
        · refine iff_of_false (fun promise => ?_) fun clean =>
            good ((clean programmed).2 inside).1
          push Not at good
          obtain ⟨turn, within, bad⟩ := good
          have opened := writeLoop_open dev answers data 0 halError addr.toNat 0
            size.toNat (by omega) ⟨turn, within, by rwa [Nat.zero_add]⟩
          rw [Nat.mod_eq_of_lt short] at opened
          exact opened promise.closed
    · by_cases wraps : dev.chip.mSize.toNat <
          (addr.toNat + size.toNat) % 2 ^ 32
      · rw [if_pos (.inr (.inr (by rwa [BitVec.lt_def, sum])))]
        exact iff_of_true
          (rejected_writePromise dev answers data addr size fun _ within =>
            absurd within inside)
          fun _ => ⟨fun _ => wraps, fun within => absurd within inside⟩
      · have some : 0 < size.toNat := by omega
        have accepted : ¬ (dev.chip.pageProgram = false ∨ size = 0 ∨
            dev.chip.mSize < addr + size) := by
          rintro (missing | none | beyond)
          · rw [programmed] at missing
            cases missing
          · exact absurd (empty.mp none) (Nat.ne_of_gt some)
          · rw [BitVec.lt_def, sum] at beyond
            exact wraps beyond
        rw [if_neg accepted]
        refine iff_of_false (fun promise => ?_) fun clean =>
          wraps ((clean programmed).1 (Nat.lt_of_not_le inside))
        have rejected := promise.rejected (Nat.lt_of_not_le inside)
        exact writeLoop_acts dev answers data 0 halError addr.toNat 0 some
          (congrArg Prod.snd rejected)
  · rw [if_pos (.inl (Bool.eq_false_iff.mpr programmed))]
    exact iff_of_true
      (rejected_writePromise dev answers data addr size fun yes =>
        absurd yes programmed)
      fun yes => absurd yes programmed

def smallChip : FlashChip where
  mSize := 0x200000
  mPageSize := 256
  mReadSupport := 0x07
  mPageProgramSupport := 0x01
  pageProgram := true
  read := true
  paged := Nat.le_of_ble_eq_true rfl

def smallDev : FlashDev where
  chip := smallChip
  rmode := 0x02
  wmode := 0x01

/-- Everything succeeds, but for the pages and waits that are given. -/
def answersOf (pageProgram waitCompl : Nat → HalStatus) : FlashAnswers where
  pageProgram := pageProgram
  waitCompl := waitCompl
  read := halOk
  writeStatus := halOk
  readStatus := halOk
  disableQpiMode := halOk
  switchReadMode := halOk
  enableQpiMode := halOk

/-- One byte that fails, and 512 bytes whose end wraps to address 256 of the
chip. -/
theorem writes_broken :
    ¬ WritePromise smallDev (answersOf (fun _ => halError) fun _ => halOk)
        (fun _ => 0) 0 1
        (halFlashWrite smallDev
          (answersOf (fun _ => halError) fun _ => halOk) (fun _ => 0) 0 1) ∧
      ¬ WritePromise smallDev (answersOf (fun _ => halOk) fun _ => halOk)
        (fun _ => 0) 0xFFFFFF00 0x200
        (halFlashWrite smallDev
          (answersOf (fun _ => halOk) fun _ => halOk) (fun _ => 0)
          0xFFFFFF00 0x200) := by
  constructor
  · intro promise
    have failing := writeLoop_failing smallDev
      (answersOf (fun _ => halError) fun _ => halOk) (fun _ => 0) 0 halError 0 0
      Nat.one_pos (by decide)
    have closed : Balanced (writeLoop smallDev
      (answersOf (fun _ => halError) fun _ => halOk) (fun _ => 0) 0 halError 0 0
        1).2 := promise.closed
    rw [failing] at closed
    exact pageActs_open _ _ _ _ _ closed
  · intro promise
    exact writeLoop_acts smallDev (answersOf (fun _ => halOk) fun _ => halOk)
      (fun _ => 0) 0 halError 0xFFFFFF00 0 (by decide)
      (congrArg Prod.snd (promise.rejected (by decide)))

end XR872.Flash
