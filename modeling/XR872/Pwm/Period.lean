/-
The period of a PWM channel.

The prescaler is the least that gets the period into 16 bits, and the period is
rounded to the next whole number of clocks. The remainder that decides whether
the prescaler is rounded up is kept in 8 bits, and half of an odd frequency is
rounded down.
-/

import Mathlib

namespace XR872.Pwm

def maxEntireCycle : Nat := 65536
def maxPwmPrescale : Nat := 256

inductive PwmMode where
  | cycle
  | pluse
  | capture
deriving DecidableEq, Repr

inductive PwmPolarity where
  | lowLeve
  | highLeve
deriving DecidableEq, Repr

structure PwmChInitParam where
  mode : PwmMode
  polarity : PwmPolarity
  hz : BitVec 32
deriving DecidableEq, Repr

/-- Fields of a channel's registers, and its bypass bit of the group. -/
structure PwmRegs where
  prescal : BitVec 8
  actSta : Bool
  pluse : Bool
  entireCycle : BitVec 16
  bypass : Bool
deriving DecidableEq, Repr

/-- `PWM_ReadGroupClkFreq`, from the group's register. -/
def pwmReadGroupClkFreq (hfClock apbClock pccr : BitVec 32) : Nat :=
  let clk := pccr &&& 0x180
  let div := (pccr &&& 0xF).toNat
  let srcClkFreq := if clk = 0 then hfClock.toNat else apbClock.toNat
  srcClkFreq / 2 ^ div

/-- `src_clk_freq / MAX_ENTIRE_CYCLE + temp1`. -/
def entireCycles (srcClkFreq : Nat) : Nat :=
  srcClkFreq / maxEntireCycle + if 0 < srcClkFreq % maxEntireCycle then 1 else 0

def minFreq (srcClkFreq : Nat) : Nat :=
  entireCycles srcClkFreq / maxPwmPrescale +
    if 0 < entireCycles srcClkFreq % maxPwmPrescale then 1 else 0

/-- `ch_div`, a byte that holds the remainder first. -/
def chDiv (srcClkFreq hz : Nat) : BitVec 8 :=
  if entireCycles srcClkFreq < hz then 0
  else
    let remainder := BitVec.ofNat 8 (entireCycles srcClkFreq % hz)
    if remainder ≠ 0 then BitVec.ofNat 8 (entireCycles srcClkFreq / hz)
    else BitVec.ofNat 8 (entireCycles srcClkFreq / hz) - 1

/-- `PWM_ChClkDiv`: the clock of the channel, 0 if there is none; a byte is
never beyond the last prescaler. -/
def pwmChClkDiv (srcClkFreq : Nat) (regs : PwmRegs) (param : PwmChInitParam) :
    Nat × PwmRegs :=
  let hz := param.hz.toNat
  if srcClkFreq < hz ∨ hz < minFreq srcClkFreq then (0, regs)
  else
    (srcClkFreq / ((chDiv srcClkFreq hz).toNat + 1),
      { regs with prescal := chDiv srcClkFreq hz })

def chEntireCycle (chClkFreq hz : Nat) : Nat :=
  chClkFreq / hz + if hz / 2 ≤ chClkFreq % hz then 1 else 0

/-- `PWM_OutModeInit`, without the wait for the period before. -/
def pwmOutModeInit (srcClkFreq : Nat) (regs : PwmRegs)
    (param : PwmChInitParam) : Int × PwmRegs :=
  let hz := param.hz.toNat
  let (chClkFreq, regs) := pwmChClkDiv srcClkFreq regs param
  if chClkFreq = 0 then (-1, regs)
  else if chClkFreq < hz then (-1, regs)
  else
    let cycle := chEntireCycle chClkFreq hz
    if cycle = 1 then
      if param.mode = .cycle then (1, { regs with bypass := true })
      else (-1, regs)
    else
      ((BitVec.ofNat 32 cycle).toInt,
        { regs with
          actSta := param.polarity = .highLeve
          pluse := if param.mode = .pluse then true
            else if param.mode = .cycle then false else regs.pluse
          entireCycle := BitVec.ofNat 16 (cycle - 1) })

/-! ### What a period is -/

def Nearest (cycle clk hz : Nat) : Prop :=
  2 * (cycle * hz) ≤ 2 * clk + hz ∧ 2 * clk ≤ 2 * (cycle * hz) + hz

/-- The period of a channel, from what is returned and the registers. -/
structure PeriodPromise (srcClkFreq hz : Nat) (result : Int)
    (regs : PwmRegs) : Prop where
  prescaler : regs.prescal.toNat ≤ 255
  bounded : result ≤ 65536
  written : (regs.entireCycle.toNat : Int) = result - 1
  nearest : Nearest result.toNat (srcClkFreq / (regs.prescal.toNat + 1)) hz

def CleanRemainder (srcClkFreq hz : Nat) : Prop :=
  entireCycles srcClkFreq < hz ∨ entireCycles srcClkFreq % hz = 0 ∨
    ¬ 256 ∣ entireCycles srcClkFreq % hz

def prescale (srcClkFreq hz : Nat) : Nat :=
  max 1 ((entireCycles srcClkFreq + hz - 1) / hz)

def CleanHalf (srcClkFreq hz : Nat) : Prop :=
  2 ∣ hz ∨ srcClkFreq / prescale srcClkFreq hz % hz ≠ hz / 2

/-! ### Rounding up -/

theorem entireCycles_covers (srcClkFreq : Nat) :
    srcClkFreq ≤ 65536 * entireCycles srcClkFreq ∧
      65536 * entireCycles srcClkFreq < srcClkFreq + 65536 := by
  unfold entireCycles maxEntireCycle
  split <;> omega

theorem minFreq_covers (srcClkFreq : Nat) :
    entireCycles srcClkFreq ≤ 256 * minFreq srcClkFreq ∧
      256 * minFreq srcClkFreq < entireCycles srcClkFreq + 256 := by
  unfold minFreq maxPwmPrescale
  split <;> omega

/-- The least frequency is the source divided by `2 ^ 24`, rounded up. -/
theorem minFreq_eq (srcClkFreq : Nat) :
    minFreq srcClkFreq = (srcClkFreq + 2 ^ 24 - 1) / 2 ^ 24 := by
  have cycles := entireCycles_covers srcClkFreq
  have least := minFreq_covers srcClkFreq
  omega

theorem pwmReadGroupClkFreq_lt (hfClock apbClock pccr : BitVec 32) :
    pwmReadGroupClkFreq hfClock apbClock pccr < 2 ^ 32 := by
  unfold pwmReadGroupClkFreq
  dsimp only
  refine Nat.lt_of_le_of_lt (Nat.div_le_self _ _) ?_
  split
  · exact hfClock.isLt
  · exact apbClock.isLt

/-! ### The prescaler -/

theorem toNat_pred {count : Nat} (one : 1 ≤ count) (short : count ≤ 256) :
    (BitVec.ofNat 8 count - 1).toNat = count - 1 := by
  rw [BitVec.toNat_sub, BitVec.toNat_ofNat]
  change (2 ^ 8 - 1 + count % 2 ^ 8) % 2 ^ 8 = _
  omega

section

variable {srcClkFreq hz : Nat} (least : minFreq srcClkFreq ≤ hz)
  (some : 0 < hz)

include least some

omit some in
theorem quotient_le : entireCycles srcClkFreq / hz ≤ 256 := by
  have covers := minFreq_covers srcClkFreq
  apply Nat.div_le_of_le_mul
  rw [Nat.mul_comm]
  omega

theorem chDiv_clean (positive : 0 < srcClkFreq)
    (clean : CleanRemainder srcClkFreq hz) :
    (chDiv srcClkFreq hz).toNat + 1 = prescale srcClkFreq hz := by
  have covers := entireCycles_covers srcClkFreq
  have within := minFreq_covers srcClkFreq
  have short := quotient_le least
  unfold CleanRemainder at clean
  unfold chDiv prescale
  by_cases below : entireCycles srcClkFreq < hz
  · have one : (entireCycles srcClkFreq + hz - 1) / hz ≤ 1 :=
      Nat.le_of_lt_succ (Nat.div_lt_of_lt_mul (by omega))
    rw [if_pos below, Nat.max_eq_left one]
    rfl
  · rw [if_neg below]
    rw [or_iff_right below] at clean
    have split := Nat.div_add_mod (entireCycles srcClkFreq) hz
    have rest := Nat.mod_lt (entireCycles srcClkFreq) some
    have one := Nat.div_pos (Nat.le_of_not_lt below) some
    dsimp only
    by_cases none : entireCycles srcClkFreq % hz = 0
    · have up : (entireCycles srcClkFreq + hz - 1) / hz =
          entireCycles srcClkFreq / hz := by
        apply Nat.div_eq_of_lt_le
        · rw [Nat.mul_comm]
          omega
        · rw [Nat.succ_mul, Nat.mul_comm]
          omega
      have zero : BitVec.ofNat 8 (entireCycles srcClkFreq % hz) = 0 := by
        rw [none]
        rfl
      rw [if_neg (not_not_intro zero), up, Nat.max_eq_right one]
      have byte := toNat_pred one short
      omega
    · have lost : BitVec.ofNat 8 (entireCycles srcClkFreq % hz) ≠ 0 := by
        intro zero
        have byte := congrArg BitVec.toNat zero
        exact clean.elim none fun kept => kept (Nat.dvd_of_mod_eq_zero byte)
      have up : (entireCycles srcClkFreq + hz - 1) / hz =
          entireCycles srcClkFreq / hz + 1 := by
        apply Nat.div_eq_of_lt_le
        · rw [Nat.succ_mul, Nat.mul_comm]
          omega
        · rw [Nat.succ_mul, Nat.succ_mul, Nat.mul_comm]
          omega
      have fits : entireCycles srcClkFreq / hz < 256 := by
        apply Nat.div_lt_of_lt_mul
        rw [Nat.mul_comm]
        refine Nat.lt_of_le_of_ne (by omega) fun whole => none ?_
        rw [whole, Nat.mul_mod_left]
      rw [if_pos lost, up, Nat.max_eq_right (Nat.le_add_left 1 _),
        BitVec.toNat_ofNat, Nat.mod_eq_of_lt fits]

theorem chDiv_lost (lost : ¬ CleanRemainder srcClkFreq hz) :
    (chDiv srcClkFreq hz).toNat + 1 = entireCycles srcClkFreq / hz ∧
      256 ≤ entireCycles srcClkFreq % hz := by
  unfold CleanRemainder at lost
  push Not at lost
  obtain ⟨above, left_, whole⟩ := lost
  have one := Nat.div_pos above some
  have zero : BitVec.ofNat 8 (entireCycles srcClkFreq % hz) = 0 :=
    BitVec.eq_of_toNat_eq (Nat.mod_eq_zero_of_dvd whole)
  unfold chDiv
  rw [if_neg (Nat.not_lt_of_le above)]
  dsimp only
  rw [if_neg (not_not_intro zero)]
  refine ⟨?_, Nat.le_of_dvd (Nat.pos_of_ne_zero left_) whole⟩
  have byte := toNat_pred one (quotient_le least)
  omega

theorem clock_ge (within : hz ≤ srcClkFreq) :
    hz ≤ srcClkFreq / ((chDiv srcClkFreq hz).toNat + 1) := by
  have covers := entireCycles_covers srcClkFreq
  rw [Nat.le_div_iff_mul_le (Nat.add_pos_right _ Nat.one_pos)]
  by_cases clean : CleanRemainder srcClkFreq hz
  · rw [chDiv_clean least some (by omega) clean]
    unfold prescale
    rcases Nat.le_total ((entireCycles srcClkFreq + hz - 1) / hz) 1 with
      one | more
    · rw [Nat.max_eq_left one, Nat.mul_one]
      exact within
    · rw [Nat.max_eq_right more]
      have up := Nat.mul_div_le (entireCycles srcClkFreq + hz - 1) hz
      by_cases below : entireCycles srcClkFreq < hz
      · have one : (entireCycles srcClkFreq + hz - 1) / hz ≤ 1 :=
          Nat.le_of_lt_succ (Nat.div_lt_of_lt_mul (by omega))
        rw [Nat.le_antisymm one more, Nat.mul_one]
        exact within
      · omega
  · obtain ⟨less, _⟩ := chDiv_lost least some clean
    rw [less]
    have down := Nat.mul_div_le (entireCycles srcClkFreq) hz
    omega

theorem clock_le (positive : 0 < srcClkFreq)
    (clean : CleanRemainder srcClkFreq hz) :
    srcClkFreq / ((chDiv srcClkFreq hz).toNat + 1) ≤ 65536 * hz := by
  rw [chDiv_clean least some positive clean]
  have covers := entireCycles_covers srcClkFreq
  have up : entireCycles srcClkFreq ≤ hz * prescale srcClkFreq hz := by
    unfold prescale
    refine Nat.le_trans ?_ (Nat.mul_le_mul_left hz (Nat.le_max_right 1 _))
    have split := Nat.div_add_mod (entireCycles srcClkFreq + hz - 1) hz
    have rest := Nat.mod_lt (entireCycles srcClkFreq + hz - 1) some
    omega
  apply Nat.div_le_of_le_mul
  calc srcClkFreq ≤ 65536 * entireCycles srcClkFreq := covers.1
    _ ≤ 65536 * (hz * prescale srcClkFreq hz) := Nat.mul_le_mul_left _ up
    _ = prescale srcClkFreq hz * (65536 * hz) := by ring

theorem clock_lost (short : srcClkFreq < 2 ^ 32)
    (lost : ¬ CleanRemainder srcClkFreq hz) :
    65537 * hz ≤ srcClkFreq / ((chDiv srcClkFreq hz).toNat + 1) := by
  obtain ⟨less, more⟩ := chDiv_lost least some lost
  rw [Nat.le_div_iff_mul_le (Nat.add_pos_right _ Nat.one_pos), less]
  have covers := entireCycles_covers srcClkFreq
  have split := Nat.div_add_mod (entireCycles srcClkFreq) hz
  calc 65537 * hz * (entireCycles srcClkFreq / hz) =
        65537 * (hz * (entireCycles srcClkFreq / hz)) := by ring
    _ ≤ srcClkFreq := by omega

end

/-! ### The period -/

section

variable {clk hz : Nat} (some : 0 < hz)

include some

theorem nearest_iff :
    Nearest (chEntireCycle clk hz) clk hz ↔ 2 ∣ hz ∨ clk % hz ≠ hz / 2 := by
  have split := Nat.div_add_mod clk hz
  have rest := Nat.mod_lt clk some
  have times : (clk / hz + 1) * hz = hz * (clk / hz) + hz := by ring
  have same : clk / hz * hz = hz * (clk / hz) := Nat.mul_comm _ _
  unfold Nearest chEntireCycle
  split
  · rw [times]
    omega
  · rw [Nat.add_zero, same]
    omega

theorem chEntireCycle_le (fits : clk ≤ 65536 * hz)
    (half : 2 ∣ hz ∨ clk % hz ≠ hz / 2) : chEntireCycle clk hz ≤ 65536 := by
  have split := Nat.div_add_mod clk hz
  have short : clk / hz ≤ 65536 := Nat.div_le_of_le_mul (by
    rw [Nat.mul_comm]
    exact fits)
  unfold chEntireCycle
  split
  · refine Nat.succ_le_of_lt (Nat.lt_of_le_of_ne short fun most => ?_)
    rw [most, Nat.mul_comm] at split
    omega
  · exact short

theorem chEntireCycle_ge (times : Nat) (beyond : times * hz ≤ clk) :
    times ≤ chEntireCycle clk hz :=
  Nat.le_trans ((Nat.le_div_iff_mul_le some).mpr beyond) (Nat.le_add_right _ _)

end

section

variable {srcClkFreq : Nat} (regs : PwmRegs) (param : PwmChInitParam)

/-- The clock of the channel. -/
def chClk (srcClkFreq hz : Nat) : Nat :=
  srcClkFreq / ((chDiv srcClkFreq hz).toNat + 1)

theorem pwmOutModeInit_within (least : minFreq srcClkFreq ≤ param.hz.toNat)
    (some : 0 < param.hz.toNat) (within : param.hz.toNat ≤ srcClkFreq) :
    pwmOutModeInit srcClkFreq regs param =
      if chEntireCycle (chClk srcClkFreq param.hz.toNat) param.hz.toNat = 1 then
        if param.mode = .cycle then
          (1, { regs with
            prescal := chDiv srcClkFreq param.hz.toNat
            bypass := true })
        else
          (-1, { regs with prescal := chDiv srcClkFreq param.hz.toNat })
      else
        ((BitVec.ofNat 32 (chEntireCycle
            (chClk srcClkFreq param.hz.toNat) param.hz.toNat)).toInt,
          { regs with
            prescal := chDiv srcClkFreq param.hz.toNat
            actSta := param.polarity = .highLeve
            pluse := if param.mode = .pluse then true
              else if param.mode = .cycle then false else regs.pluse
            entireCycle := BitVec.ofNat 16 (chEntireCycle
              (chClk srcClkFreq param.hz.toNat) param.hz.toNat - 1) }) := by
  have fast := clock_ge least some within
  unfold pwmOutModeInit pwmChClkDiv chClk
  dsimp only
  rw [if_neg (by omega : ¬ (srcClkFreq < param.hz.toNat ∨
    param.hz.toNat < minFreq srcClkFreq))]
  dsimp only
  rw [if_neg (by omega), if_neg (Nat.not_lt_of_le fast)]

theorem toInt_cycle (least : minFreq srcClkFreq ≤ param.hz.toNat) :
    (BitVec.ofNat 32 (chEntireCycle (chClk srcClkFreq param.hz.toNat)
      param.hz.toNat)).toInt =
      chEntireCycle (chClk srcClkFreq param.hz.toNat) param.hz.toNat := by
  have slow : srcClkFreq ≤ 2 ^ 24 * param.hz.toNat := by
    have cycles := entireCycles_covers srcClkFreq
    have covers := minFreq_covers srcClkFreq
    omega
  have clock : chClk srcClkFreq param.hz.toNat ≤ param.hz.toNat * 2 ^ 24 := by
    rw [Nat.mul_comm]
    exact Nat.le_trans (Nat.div_le_self _ _) slow
  have quotient : chClk srcClkFreq param.hz.toNat / param.hz.toNat ≤ 2 ^ 24 :=
    Nat.div_le_of_le_mul clock
  have small : chEntireCycle (chClk srcClkFreq param.hz.toNat)
      param.hz.toNat ≤ 2 ^ 24 + 1 := by
    unfold chEntireCycle
    split <;> omega
  rw [BitVec.toInt_eq_toNat_of_lt]
  · rw [BitVec.toNat_ofNat, Nat.mod_eq_of_lt (by omega)]
  · rw [BitVec.toNat_ofNat]
    omega

theorem pwmOutModeInit_accepted (short : srcClkFreq < 2 ^ 32)
    (accepted : 2 ≤ (pwmOutModeInit srcClkFreq regs param).1) :
    minFreq srcClkFreq ≤ param.hz.toNat ∧ 0 < param.hz.toNat ∧
      param.hz.toNat ≤ srcClkFreq ∧ 0 < srcClkFreq ∧
      (pwmOutModeInit srcClkFreq regs param).1 =
        chEntireCycle (chClk srcClkFreq param.hz.toNat) param.hz.toNat ∧
      (pwmOutModeInit srcClkFreq regs param).2.prescal =
        chDiv srcClkFreq param.hz.toNat ∧
      (pwmOutModeInit srcClkFreq regs param).2.entireCycle =
        BitVec.ofNat 16 (chEntireCycle (chClk srcClkFreq param.hz.toNat)
          param.hz.toNat - 1) := by
  have cycles := entireCycles_covers srcClkFreq
  have covers := minFreq_covers srcClkFreq
  have few : ∀ (value : Int) (regs' : PwmRegs), value < 2 →
      ¬ 2 ≤ (value, regs').1 := fun _ _ less => Int.not_le.mpr less
  by_cases outside : srcClkFreq < param.hz.toNat ∨
      param.hz.toNat < minFreq srcClkFreq
  · have none : pwmOutModeInit srcClkFreq regs param = (-1, regs) := by
      unfold pwmOutModeInit pwmChClkDiv
      dsimp only
      rw [if_pos outside]
      rfl
    rw [none] at accepted
    exact absurd accepted (few (-1) regs (by decide))
  · rcases Nat.eq_zero_or_pos param.hz.toNat with zero | some
    · have still : srcClkFreq = 0 := by omega
      have none : (pwmOutModeInit srcClkFreq regs param).1 = -1 := by
        unfold pwmOutModeInit pwmChClkDiv
        dsimp only
        rw [if_neg outside]
        dsimp only
        rw [still, Nat.zero_div]
        rfl
      rw [none] at accepted
      exact absurd accepted (by decide)
    · have least : minFreq srcClkFreq ≤ param.hz.toNat := by omega
      have within : param.hz.toNat ≤ srcClkFreq := by omega
      rw [pwmOutModeInit_within regs param least some within] at accepted ⊢
      split at accepted
      · split at accepted
        · exact absurd accepted (few 1 _ (by decide))
        · exact absurd accepted (few (-1) _ (by decide))
      · rename_i more
        rw [if_neg more]
        exact ⟨least, some, within, Nat.lt_of_lt_of_le some within,
          toInt_cycle param least, rfl, rfl⟩

/-- A period is right exactly if the remainder is not lost and half of the
frequency is not rounded. -/
theorem periodPromise_iff (short : srcClkFreq < 2 ^ 32)
    (accepted : 2 ≤ (pwmOutModeInit srcClkFreq regs param).1) :
    PeriodPromise srcClkFreq param.hz.toNat
        (pwmOutModeInit srcClkFreq regs param).1
        (pwmOutModeInit srcClkFreq regs param).2 ↔
      CleanRemainder srcClkFreq param.hz.toNat ∧
        CleanHalf srcClkFreq param.hz.toNat := by
  obtain ⟨least, some, within, positive, returned, prescal, written⟩ :=
    pwmOutModeInit_accepted regs param short accepted
  rw [returned] at accepted
  constructor
  · intro promise
    have clean : CleanRemainder srcClkFreq param.hz.toNat := by
      by_contra lost
      have beyond := chEntireCycle_ge some 65537
        (clock_lost least some short lost)
      have bounded := promise.bounded
      rw [returned] at bounded
      change 65537 ≤ chEntireCycle (chClk srcClkFreq param.hz.toNat)
        param.hz.toNat at beyond
      omega
    refine ⟨clean, ?_⟩
    have nearest := promise.nearest
    rw [returned, prescal, Int.toNat_natCast] at nearest
    have half := (nearest_iff some).mp nearest
    unfold chClk at half
    rwa [chDiv_clean least some positive clean] at half
  · rintro ⟨clean, half⟩
    unfold CleanHalf at half
    rw [← chDiv_clean least some positive clean] at half
    have bounded := chEntireCycle_le some
      (clock_le least some positive clean) half
    change chEntireCycle (chClk srcClkFreq param.hz.toNat) param.hz.toNat ≤
      65536 at bounded
    refine ⟨?_, ?_, ?_, ?_⟩
    · exact Nat.le_of_lt_succ (pwmOutModeInit srcClkFreq regs param).2.prescal.isLt
    · rw [returned]
      omega
    · rw [returned, written, BitVec.toNat_ofNat]
      omega
    · rw [returned, prescal, Int.toNat_natCast]
      exact (nearest_iff some).mpr half

end

theorem one_ne_rejected : (1 : Int) ≠ -1 := by decide

/-- A period of more than one clock is right unless a remainder or a half is
lost, and every frequency of which there is a period is accepted, except for one
clock in another mode than cycles. -/
theorem period_of_clean (hfClock apbClock pccr : BitVec 32) (regs : PwmRegs)
    (param : PwmChInitParam) :
    let srcClkFreq := pwmReadGroupClkFreq hfClock apbClock pccr
    let result := pwmOutModeInit srcClkFreq regs param
    (2 ≤ result.1 → CleanRemainder srcClkFreq param.hz.toNat →
      CleanHalf srcClkFreq param.hz.toNat →
        PeriodPromise srcClkFreq param.hz.toNat result.1 result.2) ∧
    (0 < srcClkFreq → (srcClkFreq + 2 ^ 24 - 1) / 2 ^ 24 ≤ param.hz.toNat →
      param.hz.toNat ≤ srcClkFreq →
        result.1 ≠ -1 ∨ param.mode ≠ .cycle ∧
          chEntireCycle (chClk srcClkFreq param.hz.toNat) param.hz.toNat =
            1) := by
  have short := pwmReadGroupClkFreq_lt hfClock apbClock pccr
  dsimp only
  generalize pwmReadGroupClkFreq hfClock apbClock pccr = srcClkFreq at short
  constructor
  · intro accepted clean half
    exact (periodPromise_iff regs param short accepted).mpr ⟨clean, half⟩
  · intro positive least within
    rw [← minFreq_eq] at least
    have some : 0 < param.hz.toNat := by
      have cycles := entireCycles_covers srcClkFreq
      have covers := minFreq_covers srcClkFreq
      omega
    rw [pwmOutModeInit_within regs param least some within]
    split
    · rename_i one
      by_cases cycle : param.mode = .cycle
      · rw [if_pos cycle]
        exact .inl one_ne_rejected
      · exact .inr ⟨cycle, one⟩
    · refine .inl ?_
      dsimp only
      rw [toInt_cycle param least]
      omega

/-- Registers after a reset. -/
def resetRegs : PwmRegs where
  prescal := 0
  actSta := false
  pluse := false
  entireCycle := 0
  bypass := false

/-- 1 kHz from an oscillator of 24 MHz. -/
theorem period_of_clean_1kHz :
    PeriodPromise 24000000 1000
        (pwmOutModeInit 24000000 resetRegs ⟨.cycle, .highLeve, 1000⟩).1
        (pwmOutModeInit 24000000 resetRegs ⟨.cycle, .highLeve, 1000⟩).2 ∧
      ((pwmOutModeInit 24000000 resetRegs ⟨.cycle, .highLeve, 1000⟩).1 ≠ -1 ∨
        PwmMode.cycle ≠ .cycle ∧
          chEntireCycle (chClk 24000000 1000) 1000 = 1) :=
  have both := period_of_clean 24000000 0 0 resetRegs
    ⟨.cycle, .highLeve, 1000⟩
  ⟨both.1 (by decide) (.inl (by decide)) (.inl (by decide)),
    both.2 (by decide) (by decide) (by decide)⟩

/-- From 40 MHz 355 Hz have a period that does not fit; from 24 MHz 3 Hz are not
the nearest; and one pulse of 24 MHz is not to be had. -/
theorem period_broken :
    (2 ≤ (pwmOutModeInit 40000000 resetRegs ⟨.cycle, .highLeve, 355⟩).1 ∧
        ¬ PeriodPromise 40000000 355
          (pwmOutModeInit 40000000 resetRegs ⟨.cycle, .highLeve, 355⟩).1
          (pwmOutModeInit 40000000 resetRegs ⟨.cycle, .highLeve, 355⟩).2) ∧
      (2 ≤ (pwmOutModeInit 24000000 resetRegs ⟨.cycle, .highLeve, 3⟩).1 ∧
        ¬ PeriodPromise 24000000 3
          (pwmOutModeInit 24000000 resetRegs ⟨.cycle, .highLeve, 3⟩).1
          (pwmOutModeInit 24000000 resetRegs ⟨.cycle, .highLeve, 3⟩).2) ∧
      (pwmOutModeInit 24000000 resetRegs ⟨.pluse, .highLeve, 24000000⟩).1 =
        -1 := by
  refine ⟨⟨by decide, fun promise => ?_⟩, ⟨by decide, fun promise => ?_⟩,
    by decide⟩
  · exact absurd promise.bounded (by decide)
  · exact absurd promise.nearest.1 (by decide)

end XR872.Pwm
