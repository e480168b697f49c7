/-
The modes of a flash device over any calls.

A mode is stored before it is checked and before the chip has switched, and two
of the errors on the way leave the driver open.
-/

import XR872.Flash.Program
import XR872.Library.Run

namespace XR872.Flash

open BitView
open Pages
open Runs

inductive FlashCall where
  | ioctl (attr : FlashControlCmd) (arg : BitVec 32)
  | read (addr size : BitVec 32)
  | write (addr size : BitVec 32) (data : Nat → Byte)

def flashCall (dev : FlashDev) (answers : FlashAnswers) :
    FlashCall → FlashDev × HalStatus × List FlashAct
  | .ioctl attr arg => halFlashIoctl dev answers attr arg
  | .read addr size => (dev, halFlashRead dev answers addr size)
  | .write addr size data => (dev, halFlashWrite dev answers data addr size)

structure FlashState where
  dev : FlashDev
  acts : List FlashAct

/-- A call with what the chip answers in it. -/
def flashStep (state : FlashState) (call : FlashCall × FlashAnswers) :
    FlashState :=
  let called := flashCall state.dev call.2 call.1
  { dev := called.1, acts := state.acts ++ called.2.2 }

/-- All bits of the mode are among those supported. -/
def Within {w : Nat} (mode support : BitVec w) : Prop := mode &&& ~~~support = 0

instance instDecidableWithin {w : Nat} (mode support : BitVec w) :
    Decidable (Within mode support) :=
  inferInstanceAs (Decidable (_ = _))

/-- The modes are supported. -/
structure Supported (dev : FlashDev) : Prop where
  rmode : Within (dev.rmode.setWidth 16) dev.chip.mReadSupport
  wmode : Within dev.wmode dev.chip.mPageProgramSupport

/-- What a call keeps. -/
structure CallPromise (state : FlashState) (call : FlashCall × FlashAnswers) :
    Prop where
  supported : Supported (flashStep state call).dev
  unchanged : (flashCall state.dev call.2 call.1).2.1 ≠ halOk →
    (flashStep state call).dev.rmode = state.dev.rmode ∧
      (flashStep state call).dev.wmode = state.dev.wmode
  closed : Balanced (flashStep state call).acts

/-- How many pages are programmed if none fails, the address counted in 32
bits. -/
def writeTurns (size address left : Nat) : Nat :=
  if 0 < size ∧ 0 < left then
    writeTurns size ((address + min left (size - address % size)) % 2 ^ 32)
      (left - min left (size - address % size)) + 1
  else 0
termination_by left
decreasing_by
  have room := Nat.mod_lt address ‹0 < size ∧ 0 < left›.1
  omega

/-- A mode is set that is supported, unless it is none and that is the mode
already, and the chip switches; no page that is programmed fails. -/
def CleanCall (dev : FlashDev) (answers : FlashAnswers) : FlashCall → Prop
  | .ioctl .setReadMode arg =>
      let mode := arg.setWidth 8
      Within (mode.setWidth 16) dev.chip.mReadSupport ∧
        (mode = 0 → dev.rmode = 0) ∧
        (mode ≠ 0 →
          (dev.rmode = flashReadQpiMode → answers.disableQpiMode = halOk) ∧
          answers.switchReadMode = halOk ∧
          (mode &&& flashReadQpiMode ≠ 0 →
            answers.enableQpiMode = halOk ∨ mode = dev.rmode))
  | .ioctl .setPageProgramMode arg =>
      let mode := arg.setWidth 8
      Within mode dev.chip.mPageProgramSupport ∧ (mode = 0 → dev.wmode = 0)
  | .ioctl _ _ => True
  | .read _ _ => True
  | .write addr size _ =>
      ¬ (dev.chip.pageProgram = false ∨ size = 0 ∨
          dev.chip.mSize < addr + size) →
        ∀ turn < writeTurns dev.chip.mPageSize addr.toNat size.toNat,
          0 ≤ answers.pageProgram turn

/-! ### Modes -/

theorem within_and {w : Nat} {mode support : BitVec w}
    (within : Within mode support) : mode &&& support = mode := by
  unfold Within at within
  have split : mode = (mode &&& support) ||| (mode &&& ~~~support) := by
    ext index there
    simp only [BitVec.getElem_or, BitVec.getElem_and, BitVec.getElem_not]
    cases mode[index] <;> cases support[index] <;> rfl
  rw [within] at split
  exact (split.trans BitVec.or_zero).symm

theorem check_iff {w : Nat} {mode support : BitVec w}
    (within : Within mode support) : mode &&& support = 0 ↔ mode = 0 := by
  rw [within_and within]

theorem setWidth_eq_zero_iff (mode : BitVec 8) :
    mode.setWidth 16 = 0 ↔ mode = 0 := by
  constructor
  · intro wide
    have value := congrArg BitVec.toNat wide
    rw [BitVec.toNat_setWidth, Nat.mod_eq_of_lt (by omega)] at value
    exact BitVec.eq_of_toNat_eq value
  · intro none
    rw [none]
    rfl

theorem halInvalid_ne_halOk : halInvalid ≠ halOk := by decide

/-! ### Reading and writing -/

section

variable (dev : FlashDev) (answers : FlashAnswers)

theorem halFlashRead_closed (addr size : BitVec 32) :
    Balanced (halFlashRead dev answers addr size).2 := by
  unfold halFlashRead
  split <;> rfl

theorem writeLoop_closed_iff (data : Nat → Byte) (turn : Nat) (ret : HalStatus)
    (address ptr left : Nat) :
    Balanced (writeLoop dev answers data turn ret address ptr left).2 ↔
      ∀ index < writeTurns dev.chip.mPageSize address left,
        0 ≤ answers.pageProgram (turn + index) := by
  induction left using Nat.strong_induction_on generalizing turn ret address
    ptr with
  | h left ih =>
      rcases Nat.eq_zero_or_pos left with rfl | some
      · rw [writeLoop_none, writeTurns, if_neg fun both =>
          absurd both.2 (Nat.lt_irrefl 0)]
        exact iff_of_true rfl fun index none => absurd none (Nat.not_lt_zero index)
      · rw [writeTurns, if_pos ⟨dev.chip.paged, some⟩]
        have piece := piece_some dev.chip.paged address some
        by_cases bad : answers.pageProgram turn < 0
        · rw [writeLoop_failing dev answers data turn ret address ptr some bad]
          refine iff_of_false (pageActs_open dev data address ptr _) fun good => ?_
          exact absurd (good 0 (Nat.succ_pos _)) (Int.not_le.mpr bad)
        · rw [writeLoop_page dev answers data turn ret address ptr some
            (Int.not_lt.mp bad)]
          dsimp only
          rw [balanced_append (pageActs_closed dev data address ptr _),
            ih _ (by omega)]
          constructor
          · intro later index within
            cases index with
            | zero => exact Int.not_lt.mp bad
            | succ index =>
                have good := later index (Nat.lt_of_succ_lt_succ within)
                rwa [Nat.add_assoc, Nat.add_comm 1] at good
          · intro good index within
            have later := good (index + 1) (Nat.succ_lt_succ within)
            rwa [Nat.add_assoc, Nat.add_comm 1]

theorem halFlashWrite_closed_iff (data : Nat → Byte) (addr size : BitVec 32) :
    Balanced (halFlashWrite dev answers data addr size).2 ↔
      CleanCall dev answers (.write addr size data) := by
  unfold halFlashWrite CleanCall
  by_cases rejected : dev.chip.pageProgram = false ∨ size = 0 ∨
      dev.chip.mSize < addr + size
  · rw [if_pos rejected]
    exact iff_of_true rfl fun accepted => absurd rejected accepted
  · rw [if_neg rejected, writeLoop_closed_iff]
    simp only [Nat.zero_add]
    exact ⟨fun good _ => good, fun good => good rejected⟩

/-! ### Switching the mode -/

theorem switchReadMode_closed_iff :
    Balanced (switchReadMode dev answers).2 ↔
      answers.switchReadMode = halOk := by
  unfold switchReadMode
  by_cases switched : answers.switchReadMode = halOk
  · rw [if_neg (not_not_intro switched)]
    refine iff_of_true ?_ switched
    split <;> rfl
  · rw [if_pos switched]
    refine iff_of_false (fun closed => ?_) switched
    cases closed

theorem switchReadMode_failed_iff (switched : answers.switchReadMode = halOk) :
    (switchReadMode dev answers).1 ≠ halOk ↔
      dev.rmode &&& flashReadQpiMode ≠ 0 ∧ answers.enableQpiMode ≠ halOk := by
  unfold switchReadMode
  rw [if_neg (not_not_intro switched)]
  by_cases qpi : dev.rmode &&& flashReadQpiMode ≠ 0
  · rw [if_pos qpi]
    exact (and_iff_right qpi).symm
  · rw [if_neg qpi]
    exact iff_of_false (not_not_intro switched) fun both => qpi both.1

theorem setReadMode_closed_iff (oldRmode : BitVec 8) :
    Balanced (setReadMode dev answers oldRmode).2 ↔
      (oldRmode = flashReadQpiMode → answers.disableQpiMode = halOk) ∧
        answers.switchReadMode = halOk := by
  unfold setReadMode
  by_cases leaving : oldRmode = flashReadQpiMode
  · rw [if_pos leaving]
    by_cases left_ : answers.disableQpiMode = halOk
    · rw [if_neg (not_not_intro left_)]
      dsimp only
      have closed : Balanced [.open_, .disableQpiMode, .waitCompl, .close] := rfl
      rw [balanced_append closed, switchReadMode_closed_iff]
      exact (and_iff_right fun _ => left_).symm
    · rw [if_pos left_]
      refine iff_of_false (fun closed => ?_) fun both => left_ (both.1 leaving)
      cases closed
  · rw [if_neg leaving, switchReadMode_closed_iff]
    exact (and_iff_right fun yes => absurd yes leaving).symm

theorem setReadMode_failed_iff (oldRmode : BitVec 8)
    (left_ : oldRmode = flashReadQpiMode → answers.disableQpiMode = halOk)
    (switched : answers.switchReadMode = halOk) :
    (setReadMode dev answers oldRmode).1 ≠ halOk ↔
      dev.rmode &&& flashReadQpiMode ≠ 0 ∧ answers.enableQpiMode ≠ halOk := by
  rw [← switchReadMode_failed_iff dev answers switched]
  unfold setReadMode
  by_cases leaving : oldRmode = flashReadQpiMode
  · rw [if_pos leaving, if_neg (not_not_intro (left_ leaving))]
  · rw [if_neg leaving]

end

/-! ### One call -/

section

variable (state : FlashState) (answers : FlashAnswers)

theorem callPromise_same {call : FlashCall} (supported : Supported state.dev)
    (balanced : Balanced state.acts)
    (same : (flashCall state.dev answers call).1 = state.dev) :
    CallPromise state (call, answers) ↔
      Balanced (flashCall state.dev answers call).2.2 := by
  have after : (flashStep state (call, answers)).dev = state.dev := same
  constructor
  · exact fun promise => (balanced_append balanced).mp promise.closed
  · intro closed
    refine ⟨?_, fun _ => ?_, (balanced_append balanced).mpr closed⟩
    · rw [after]
      exact supported
    · rw [after]
      exact ⟨rfl, rfl⟩

theorem setReadMode_promise_iff (arg : BitVec 32)
    (supported : Supported state.dev) (balanced : Balanced state.acts) :
    CallPromise state (.ioctl .setReadMode arg, answers) ↔
      CleanCall state.dev answers (.ioctl .setReadMode arg) := by
  have stored : (flashStep state (.ioctl .setReadMode arg, answers)).dev =
      { state.dev with rmode := arg.setWidth 8 } := by
    unfold flashStep flashCall halFlashIoctl
    dsimp only
    split <;> rfl
  by_cases within :
      Within ((arg.setWidth 8).setWidth 16) state.dev.chip.mReadSupport
  · have checked := (check_iff within).trans (setWidth_eq_zero_iff _)
    by_cases none : arg.setWidth 8 = 0
    · have called : flashCall state.dev answers (.ioctl .setReadMode arg) =
          ({ state.dev with rmode := arg.setWidth 8 }, halInvalid, []) :=
        if_pos (checked.mpr none)
      constructor
      · intro promise
        have same := (promise.unchanged (by
          rw [called]
          exact halInvalid_ne_halOk)).1
        rw [stored] at same
        exact ⟨within, fun _ => same.symm.trans none, fun some => absurd none some⟩
      · intro clean
        refine ⟨?_, fun _ => ?_, ?_⟩
        · rw [stored]
          exact ⟨within, supported.wmode⟩
        · rw [stored]
          exact ⟨none.trans (clean.2.1 none).symm, rfl⟩
        · unfold flashStep
          rw [called]
          exact (balanced_append balanced).mpr rfl
    · have called : flashCall state.dev answers (.ioctl .setReadMode arg) =
          ({ state.dev with rmode := arg.setWidth 8 },
            setReadMode { state.dev with rmode := arg.setWidth 8 } answers
              state.dev.rmode) :=
        if_neg (mt checked.mp none)
      have closed : Balanced
          (flashStep state (.ioctl .setReadMode arg, answers)).acts ↔
            (state.dev.rmode = flashReadQpiMode →
              answers.disableQpiMode = halOk) ∧
              answers.switchReadMode = halOk := by
        unfold flashStep
        rw [called]
        exact (balanced_append balanced).trans
          (setReadMode_closed_iff { state.dev with rmode := arg.setWidth 8 } answers _)
      constructor
      · intro promise
        obtain ⟨left_, switched⟩ := closed.mp promise.closed
        refine ⟨within, fun zero => absurd zero none,
          fun _ => ⟨left_, switched, fun qpi => ?_⟩⟩
        by_contra broken
        rw [not_or] at broken
        have same := (promise.unchanged (by
          rw [called]
          exact (setReadMode_failed_iff { state.dev with rmode := arg.setWidth 8 } answers
            _ left_ switched).mpr ⟨qpi, broken.1⟩)).1
        rw [stored] at same
        exact broken.2 same
      · intro clean
        obtain ⟨left_, switched, entered⟩ := clean.2.2 none
        refine ⟨?_, fun failed => ?_, closed.mpr ⟨left_, switched⟩⟩
        · rw [stored]
          exact ⟨within, supported.wmode⟩
        · rw [called] at failed
          obtain ⟨qpi, notEntered⟩ := (setReadMode_failed_iff
            { state.dev with rmode := arg.setWidth 8 } answers _ left_ switched).mp failed
          rw [stored]
          exact ⟨(entered qpi).resolve_left notEntered, rfl⟩
  · refine iff_of_false (fun promise => ?_) fun clean => within clean.1
    have mode := promise.supported.rmode
    rw [stored] at mode
    exact within mode

theorem setPageProgramMode_promise_iff (arg : BitVec 32)
    (supported : Supported state.dev) (balanced : Balanced state.acts) :
    CallPromise state (.ioctl .setPageProgramMode arg, answers) ↔
      CleanCall state.dev answers (.ioctl .setPageProgramMode arg) := by
  have stored : (flashStep state
      (.ioctl .setPageProgramMode arg, answers)).dev =
        { state.dev with wmode := arg.setWidth 8 } := by
    unfold flashStep flashCall halFlashIoctl
    dsimp only
    split <;> rfl
  have closed : Balanced
      (flashStep state (.ioctl .setPageProgramMode arg, answers)).acts := by
    unfold flashStep flashCall halFlashIoctl
    dsimp only
    split <;> exact (balanced_append balanced).mpr rfl
  by_cases within :
      Within (arg.setWidth 8) state.dev.chip.mPageProgramSupport
  · have failed :
        (flashCall state.dev answers (.ioctl .setPageProgramMode arg)).2.1 ≠
          halOk ↔ arg.setWidth 8 = 0 := by
      unfold flashCall halFlashIoctl
      dsimp only
      by_cases none : arg.setWidth 8 = 0
      · rw [if_pos ((check_iff within).mpr none)]
        exact iff_of_true halInvalid_ne_halOk none
      · rw [if_neg (mt (check_iff within).mp none)]
        exact iff_of_false (not_not_intro rfl) none
    constructor
    · intro promise
      refine ⟨within, fun none => ?_⟩
      have same := (promise.unchanged (failed.mpr none)).2
      rw [stored] at same
      exact same.symm.trans none
    · intro clean
      refine ⟨?_, fun bad => ?_, closed⟩
      · rw [stored]
        exact ⟨supported.rmode, within⟩
      · have none := failed.mp bad
        rw [stored]
        exact ⟨rfl, none.trans (clean.2 none).symm⟩
  · refine iff_of_false (fun promise => ?_) fun clean => within clean.1
    have mode := promise.supported.wmode
    rw [stored] at mode
    exact within mode

theorem callPromise_iff_clean (call : FlashCall)
    (supported : Supported state.dev) (balanced : Balanced state.acts) :
    CallPromise state (call, answers) ↔ CleanCall state.dev answers call := by
  cases call with
  | read addr size =>
      rw [callPromise_same state answers supported balanced rfl]
      exact iff_of_true (halFlashRead_closed state.dev answers addr size) trivial
  | write addr size data =>
      rw [callPromise_same state answers supported balanced rfl]
      exact halFlashWrite_closed_iff state.dev answers data addr size
  | ioctl attr arg =>
      cases attr with
      | setReadMode =>
          exact setReadMode_promise_iff state answers arg supported balanced
      | setPageProgramMode =>
          exact setPageProgramMode_promise_iff state answers arg supported
            balanced
      | _ =>
          rw [callPromise_same state answers supported balanced rfl]
          exact iff_of_true rfl trivial

end

/-! ### All calls -/

/-- Over any calls everything is kept exactly if every call is clean. -/
theorem modes_kept_iff_clean (dev : FlashDev) (supported : Supported dev)
    (calls : List (FlashCall × FlashAnswers)) :
    Along flashStep CallPromise ⟨dev, []⟩ calls ↔
      Along flashStep (fun state call => CleanCall state.dev call.2 call.1)
        ⟨dev, []⟩ calls := by
  have closed : Balanced [] := rfl
  refine along_iff_along_of_kept _ _
    (fun state => Supported state.dev ∧ Balanced state.acts) ?_ ?_ _
    ⟨supported, closed⟩ calls
  · rintro state ⟨call, answers⟩ ⟨supported, balanced⟩ clean
    have promise := (callPromise_iff_clean state answers call supported
      balanced).mpr clean
    exact ⟨promise.supported, promise.closed⟩
  · rintro state ⟨call, answers⟩ ⟨supported, balanced⟩
    exact callPromise_iff_clean state answers call supported balanced

/-- Reading 16 bytes in a mode that has been set before. -/
theorem modes_kept_iff_clean_fast :
    Supported smallDev ∧
      (Along flashStep CallPromise ⟨smallDev, []⟩
          [(.ioctl .setReadMode 0x04,
            answersOf (fun _ => halOk) fun _ => halOk),
            (.read 0 16, answersOf (fun _ => halOk) fun _ => halOk)] ↔
        Along flashStep (fun state call => CleanCall state.dev call.2 call.1)
          ⟨smallDev, []⟩
          [(.ioctl .setReadMode 0x04,
            answersOf (fun _ => halOk) fun _ => halOk),
            (.read 0 16, answersOf (fun _ => halOk) fun _ => halOk)]) :=
  have supported : Supported smallDev := ⟨by decide, by decide⟩
  ⟨supported, modes_kept_iff_clean smallDev supported _⟩

/-- A mode the chip does not have is refused, and stays. -/
theorem refused_mode_stays :
    Supported smallDev ∧
      ¬ Along flashStep CallPromise ⟨smallDev, []⟩
        [(.ioctl .setReadMode 0x40,
          answersOf (fun _ => halOk) fun _ => halOk)] := by
  refine ⟨⟨by decide, by decide⟩, fun promises => ?_⟩
  have kept := (promises.1.unchanged (by decide)).1
  exact absurd kept (by decide)

end XR872.Flash
