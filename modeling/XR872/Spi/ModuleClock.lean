/-
The clock of the SPI module.

The module divides one of two sources by a power of two and a factor of 4 bits.
The quotient that is asked for is rounded up, and then the shift into the factor
rounds it down.
-/

import XR872.Spi.Divider

namespace XR872.Spi

/-- `CCM_AHB_PERIPH_CLK_SRC_xxx`. -/
inductive AhbPeriphClkSrc where
  | hfclk
  | devclk
deriving DecidableEq, Repr

/-- `CCM_PERIPH_CLK_DIV_N_xxx`. -/
inductive PeriphClkDivN where
  | n1
  | n2
  | n4
  | n8
deriving DecidableEq, Repr

def PeriphClkDivN.value : PeriphClkDivN → Nat
  | .n1 => 1
  | .n2 => 2
  | .n4 => 4
  | .n8 => 8

/-- What `HAL_CCM_SPI0_SetMClock` and `HAL_CCM_SPI1_SetMClock` are given. -/
structure SpiMClock where
  src : AhbPeriphClkSrc
  divN : PeriphClkDivN
  divM : BitVec 32
deriving DecidableEq, Repr

/-- What the module divides its source by; the field of `divM` has 4 bits. -/
def SpiMClock.divisor (clock : SpiMClock) : Nat :=
  clock.divN.value * (clock.divM.toNat % 16 + 1)

section

variable (hf dev : BitVec 32)

/-- `HAL_GetHFClock` or `HAL_GetDevClock`. -/
def srcClock : AhbPeriphClkSrc → BitVec 32
  | .hfclk => hf
  | .devclk => dev

/-- `HAL_SPI_ConfigCCMU`, the same for both ports: what it sets if it does not
return 0. -/
def halSpiConfigCcmu (clk : BitVec 32) : Option SpiMClock :=
  let src := if hf < clk then .devclk else .hfclk
  let mclk := srcClock hf dev src
  let div := (mclk + clk - 1) / clk
  let div := if div = 0 then 1 else div
  if 16 * 8 < div then none
  else if 64 < div then some ⟨src, .n8, (div >>> 3) - 1⟩
  else if 32 < div then some ⟨src, .n4, (div >>> 2) - 1⟩
  else if 16 < div then some ⟨src, .n2, (div >>> 1) - 1⟩
  else some ⟨src, .n1, div - 1⟩

end

/-- What both functions keep for a module clock and a device clock that they
accept, and that they do not accept others. -/
structure ClockPromise (hf dev mclk sclk : BitVec 32) (regs : SpiRegs) :
    Prop where
  module : ∀ clock, halSpiConfigCcmu hf dev mclk = some clock →
    (spiSetClkDiv regs mclk sclk).1 = .ok →
      (srcClock hf dev clock.src).toNat ≤ clock.divisor * mclk.toNat
  divider : (halSpiConfigCcmu hf dev mclk).isSome →
    (spiSetClkDiv regs mclk sclk).1 = .ok →
      (spiSetClkDiv regs mclk sclk).2.Divides mclk sclk
  device : ∀ clock, halSpiConfigCcmu hf dev mclk = some clock →
    (spiSetClkDiv regs mclk sclk).1 = .ok →
      (srcClock hf dev clock.src).toNat ≤
        clock.divisor * (spiSetClkDiv regs mclk sclk).2.divisor * sclk.toNat
  rejected : ¬ Expressible mclk sclk →
    ¬ ((halSpiConfigCcmu hf dev mclk).isSome ∧
      (spiSetClkDiv regs mclk sclk).1 = .ok)

/-! ### What is asked for -/

def rounded (source clk : Nat) : Nat := (source + clk - 1) / clk

def Reachable (source clk : Nat) : Prop :=
  2 ^ 32 ≤ source + clk - 1 ∨ rounded source clk ≤ 128

/-- The source is not faster, or the sum does not wrap and the quotient is a
multiple of the power of two of its range. -/
def Slowed (source clk : Nat) : Prop :=
  source ≤ clk ∨
    source + clk - 1 < 2 ^ 32 ∧
      (rounded source clk ≤ 16 ∨
        rounded source clk ≤ 32 ∧ 2 ∣ rounded source clk ∨
        rounded source clk ≤ 64 ∧ 4 ∣ rounded source clk ∨
        8 ∣ rounded source clk)

def Halving (mclk sclk : Nat) : Prop :=
  0 < sclk ∧ ∃ div, 0 < div ∧ mclk = div * sclk ∧ (div = 1 ∨ 2 ∣ div)

/-- For what both functions accept, the shift into the factor loses nothing, and
the register can express the divider. -/
def CleanClock (hf dev mclk sclk : BitVec 32) : Prop :=
  let source := (srcClock hf dev (if hf < mclk then .devclk else .hfclk)).toNat
  Reachable source mclk.toNat → Halving mclk.toNat sclk.toNat →
    Slowed source mclk.toNat ∧ Expressible mclk sclk

/-! ### The module clock -/

/-- The quotient that the ranges are chosen by. -/
def asked (source clk : Nat) : Nat :=
  if 2 ^ 32 ≤ source + clk - 1 then 1 else max 1 (rounded source clk)

def reached (div : Nat) : Nat :=
  if 64 < div then 8 * (div / 8)
  else if 32 < div then 4 * (div / 4)
  else if 16 < div then 2 * (div / 2)
  else div

theorem asked_eq (source clk : BitVec 32) (positive : 0 < clk.toNat) :
    (if (source + clk - 1) / clk = 0 then 1
      else (source + clk - 1) / clk : BitVec 32).toNat =
        asked source.toNat clk.toNat := by
  have low := source.isLt
  have short := clk.isLt
  have sum : (source + clk - 1).toNat =
      (source.toNat + clk.toNat - 1) % 2 ^ 32 := by
    rw [BitVec.toNat_sub, BitVec.toNat_add]
    change (2 ^ 32 - 1 + (source.toNat + clk.toNat) % 2 ^ 32) % 2 ^ 32 = _
    omega
  have quotient : ((source + clk - 1) / clk).toNat =
      (source.toNat + clk.toNat - 1) % 2 ^ 32 / clk.toNat := by
    rw [BitVec.toNat_udiv, sum]
  have zero : (source + clk - 1) / clk = 0 ↔
      (source.toNat + clk.toNat - 1) % 2 ^ 32 / clk.toNat = 0 := by
    rw [← quotient]
    exact BitVec.toNat_eq
  unfold asked rounded
  by_cases wraps : 2 ^ 32 ≤ source.toNat + clk.toNat - 1
  · have none : (source.toNat + clk.toNat - 1) % 2 ^ 32 / clk.toNat = 0 :=
      Nat.div_eq_of_lt (by omega)
    rw [if_pos (zero.mpr none), if_pos wraps]
    rfl
  · rw [Nat.mod_eq_of_lt (Nat.lt_of_not_le wraps)] at quotient zero
    rw [if_neg wraps]
    by_cases none : (source.toNat + clk.toNat - 1) / clk.toNat = 0
    · rw [if_pos (zero.mpr none), none]
      rfl
    · rw [if_neg (mt zero.mp none), quotient]
      omega

theorem one_le_asked (source clk : Nat) : 1 ≤ asked source clk := by
  unfold asked
  split
  · exact Nat.le_refl 1
  · exact Nat.le_max_left 1 _

section

variable (hf dev : BitVec 32)

theorem divisor_shifted (src : AhbPeriphClkSrc) (divN : PeriphClkDivN)
    (shift : Nat) {div : BitVec 32} (power : divN.value = 2 ^ shift)
    (low : 1 ≤ div.toNat / 2 ^ shift) (high : div.toNat / 2 ^ shift ≤ 16) :
    SpiMClock.divisor ⟨src, divN, (div >>> shift) - 1⟩ =
      2 ^ shift * (div.toNat / 2 ^ shift) := by
  have factor : ((div >>> shift) - 1).toNat = div.toNat / 2 ^ shift - 1 := by
    rw [BitVec.toNat_sub, BitVec.toNat_ushiftRight, Nat.shiftRight_eq_div_pow]
    change (2 ^ 32 - 1 + div.toNat / 2 ^ shift) % 2 ^ 32 = _
    omega
  unfold SpiMClock.divisor
  dsimp only
  rw [factor, power, Nat.mod_eq_of_lt (by omega), Nat.sub_add_cancel low]

theorem halSpiConfigCcmu_spec (clk : BitVec 32) (positive : 0 < clk.toNat) :
    let src := if hf < clk then AhbPeriphClkSrc.devclk else .hfclk
    let div := asked (srcClock hf dev src).toNat clk.toNat
    ((halSpiConfigCcmu hf dev clk).isSome ↔ div ≤ 128) ∧
      ∀ clock, halSpiConfigCcmu hf dev clk = some clock →
        clock.src = src ∧ clock.divisor = reached div := by
  dsimp only
  unfold halSpiConfigCcmu
  dsimp only
  generalize (if hf < clk then AhbPeriphClkSrc.devclk else .hfclk) = src
  have one := one_le_asked (srcClock hf dev src).toNat clk.toNat
  rw [← asked_eq (srcClock hf dev src) clk positive] at one ⊢
  generalize (if (srcClock hf dev src + clk - 1) / clk = 0 then 1
    else (srcClock hf dev src + clk - 1) / clk : BitVec 32) = div at one ⊢
  have over128 : 16 * 8 < div ↔ 128 < div.toNat := BitVec.lt_def
  have over64 : 64 < div ↔ 64 < div.toNat := BitVec.lt_def
  have over32 : 32 < div ↔ 32 < div.toNat := BitVec.lt_def
  have over16 : 16 < div ↔ 16 < div.toNat := BitVec.lt_def
  unfold reached
  by_cases beyond : 128 < div.toNat
  · rw [if_pos (over128.mpr beyond)]
    exact ⟨iff_of_false Bool.false_ne_true (by omega), fun clock none => by
      cases none⟩
  · rw [if_neg (mt over128.mp beyond)]
    by_cases above64 : 64 < div.toNat
    · rw [if_pos (over64.mpr above64), if_pos above64]
      refine ⟨iff_of_true rfl (by omega), fun clock found => ?_⟩
      cases found
      exact ⟨rfl, divisor_shifted src .n8 3 rfl (by omega) (by omega)⟩
    · rw [if_neg (mt over64.mp above64), if_neg above64]
      by_cases above32 : 32 < div.toNat
      · rw [if_pos (over32.mpr above32), if_pos above32]
        refine ⟨iff_of_true rfl (by omega), fun clock found => ?_⟩
        cases found
        exact ⟨rfl, divisor_shifted src .n4 2 rfl (by omega) (by omega)⟩
      · rw [if_neg (mt over32.mp above32), if_neg above32]
        by_cases above16 : 16 < div.toNat
        · rw [if_pos (over16.mpr above16), if_pos above16]
          refine ⟨iff_of_true rfl (by omega), fun clock found => ?_⟩
          cases found
          exact ⟨rfl, divisor_shifted src .n2 1 rfl (by omega) (by omega)⟩
        · rw [if_neg (mt over16.mp above16), if_neg above16]
          refine ⟨iff_of_true rfl (by omega), fun clock found => ?_⟩
          cases found
          have least := @divisor_shifted src .n1 0 div rfl (by omega) (by omega)
          rw [Nat.pow_zero, Nat.div_one, Nat.one_mul] at least
          exact ⟨rfl, least⟩

end

theorem reached_covers_iff {source clk : Nat} (positive : 0 < clk)
    (within : asked source clk ≤ 128) :
    source ≤ reached (asked source clk) * clk ↔ Slowed source clk := by
  unfold Slowed
  by_cases slow : source ≤ clk
  · refine iff_of_true ?_ (.inl slow)
    have one := one_le_asked source clk
    have factor : 1 ≤ reached (asked source clk) := by
      unfold reached
      split_ifs <;> omega
    exact Nat.le_trans slow (Nat.le_mul_of_pos_left clk factor)
  · rw [or_iff_right slow]
    by_cases wraps : 2 ^ 32 ≤ source + clk - 1
    · have least : asked source clk = 1 := if_pos wraps
      rw [least]
      exact iff_of_false (by
        rw [show reached 1 = 1 from rfl, Nat.one_mul]
        exact slow) fun both => absurd both.1 (Nat.not_lt_of_le wraps)
    · have covers : ∀ div, rounded source clk ≤ div ↔ source ≤ clk * div :=
        fun div => ceilDiv_le_iff_le_mul positive
      have two : 1 < rounded source clk := by
        by_contra least
        exact slow (by
          have within := (covers 1).mp (Nat.le_of_not_lt least)
          rwa [Nat.mul_one] at within)
      have quotient : asked source clk = rounded source clk := by
        unfold asked
        rw [if_neg wraps]
        omega
      rw [quotient] at within ⊢
      rw [Nat.mul_comm, ← covers, and_iff_right (Nat.lt_of_not_le wraps)]
      unfold reached
      split_ifs <;> omega

theorem asked_le_iff (source clk : Nat) :
    asked source clk ≤ 128 ↔ Reachable source clk := by
  unfold asked Reachable
  split <;> omega

/-! ### The device clock -/

theorem spiSetClkDiv_ok_iff (regs : SpiRegs) (mclk sclk : BitVec 32) :
    (spiSetClkDiv regs mclk sclk).1 = .ok ↔
      Halving mclk.toNat sclk.toNat := by
  constructor
  · intro ok
    unfold spiSetClkDiv at ok
    by_cases less : mclk < sclk ∨ sclk = 0
    · rw [if_pos less] at ok
      cases ok
    · rw [if_neg less] at ok
      rw [not_or, BitVec.lt_def, BitVec.toNat_eq] at less
      dsimp only at ok
      have positive : 0 < sclk.toNat := Nat.pos_of_ne_zero less.2
      have quotient : 0 < mclk.toNat / sclk.toNat :=
        Nat.div_pos (Nat.le_of_not_lt less.1) positive
      have split := Nat.div_add_mod mclk.toNat sclk.toNat
      have exactly : mclk.toNat % sclk.toNat = 0 →
          mclk.toNat = mclk.toNat / sclk.toNat * sclk.toNat := by
        intro none
        rw [none, Nat.add_zero, Nat.mul_comm] at split
        exact split.symm
      split_ifs at ok with power even
      · refine ⟨positive, _, quotient, exactly power.1, ?_⟩
        obtain ⟨k, asPower⟩ :=
          (Nat.and_sub_one_eq_zero_iff_isPowerOfTwo
            (Nat.ne_of_gt quotient)).mp power.2
        cases k with
        | zero => exact .inl asPower
        | succ k =>
            exact .inr ⟨2 ^ k, by rw [asPower, Nat.pow_succ, Nat.mul_comm]⟩
      · exact ⟨positive, _, quotient, exactly even.1,
          .inr (Nat.dvd_of_mod_eq_zero even.2)⟩
  · rintro ⟨positive, div, some_div, exactly, halves⟩
    have some_sclk : sclk ≠ 0 := fun zero =>
      absurd positive (by
        rw [zero]
        decide)
    rw [spiSetClkDiv_of_mul regs some_sclk some_div exactly]
    rcases halves with rfl | even
    · rfl
    · split_ifs with power notEven
      · rfl
      · rfl
      · exact absurd (Nat.mod_eq_zero_of_dvd even) notEven

/-- The clock is the one that was asked for exactly if both dividers are
clean. -/
theorem clockPromise_iff_clean (hf dev mclk sclk : BitVec 32) (regs : SpiRegs)
    (clocked : 0 < mclk) :
    ClockPromise hf dev mclk sclk regs ↔ CleanClock hf dev mclk sclk := by
  have positive : 0 < mclk.toNat := clocked
  have spec := halSpiConfigCcmu_spec hf dev mclk positive
  unfold CleanClock
  dsimp only at spec ⊢
  generalize (if hf < mclk then AhbPeriphClkSrc.devclk else .hfclk) = src at *
  obtain ⟨accepted, clockOf⟩ := spec
  rw [asked_le_iff] at accepted
  constructor
  · intro promise reachable halving
    have configured := accepted.mpr reachable
    have ok := (spiSetClkDiv_ok_iff regs mclk sclk).mpr halving
    obtain ⟨clock, found⟩ := Option.isSome_iff_exists.mp configured
    have covered := promise.module clock found ok
    rw [(clockOf clock found).1, (clockOf clock found).2,
      reached_covers_iff positive ((asked_le_iff _ _).mpr reachable)] at covered
    exact ⟨covered, (promise.divider configured ok).expressible⟩
  · intro clean
    have both : (halSpiConfigCcmu hf dev mclk).isSome →
        (spiSetClkDiv regs mclk sclk).1 = .ok →
          Slowed (srcClock hf dev src).toNat mclk.toNat ∧
            Expressible mclk sclk := fun configured ok =>
      clean (accepted.mp configured) ((spiSetClkDiv_ok_iff regs mclk sclk).mp ok)
    have module : ∀ clock, halSpiConfigCcmu hf dev mclk = some clock →
        (spiSetClkDiv regs mclk sclk).1 = .ok →
          (srcClock hf dev clock.src).toNat ≤ clock.divisor * mclk.toNat := by
      intro clock found ok
      have configured := Option.isSome_of_mem found
      rw [(clockOf clock found).1, (clockOf clock found).2,
        reached_covers_iff positive
          ((asked_le_iff _ _).mpr (accepted.mp configured))]
      exact (both configured ok).1
    have divider : (halSpiConfigCcmu hf dev mclk).isSome →
        (spiSetClkDiv regs mclk sclk).1 = .ok →
          (spiSetClkDiv regs mclk sclk).2.Divides mclk sclk :=
      fun configured ok =>
        ((spiSetClkDiv_divides regs mclk sclk).mpr (both configured ok).2).2
    refine ⟨module, divider, fun clock found ok => ?_, fun not both_ => ?_⟩
    · have exactly := (divider (Option.isSome_of_mem found) ok).2
      rw [Nat.mul_assoc, ← exactly]
      exact module clock found ok
    · exact not (both both_.1 both_.2).2

/-- The registers after a reset. -/
def resetRegs : SpiRegs where
  mode := .slave
  firstBit := .msb
  sclkMode := .mode0
  drs := false
  cdr1 := 0
  cdr2 := 0

/-- Half of an oscillator of 24 MHz. -/
theorem clockPromise_iff_clean_half :
    (0 : BitVec 32) < 24000000 ∧
      (ClockPromise 24000000 160000000 24000000 12000000 resetRegs ↔
        CleanClock 24000000 160000000 24000000 12000000) :=
  ⟨by decide, clockPromise_iff_clean 24000000 160000000 24000000 12000000
    resetRegs (by decide)⟩

/-- The module runs at 1.5 MHz where 1.45 MHz is asked for, and a 600th of
24 MHz becomes an 88th. -/
theorem faster_than_asked :
    (0 : BitVec 32) < 1450000 ∧
      ¬ ClockPromise 24000000 160000000 1450000 1450000 resetRegs ∧
      ¬ ClockPromise 24000000 160000000 24000000 40000 resetRegs := by
  refine ⟨by decide, fun promise => ?_, fun promise => ?_⟩
  · have covered := promise.module ⟨.hfclk, .n2, 7⟩ (by decide) (by decide)
    exact absurd covered (by decide)
  · have divides := promise.divider (by decide) (by decide)
    exact absurd divides (by decide)

end XR872.Spi
