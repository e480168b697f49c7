/-
The registers of the SPI controller that a configuration sets, and the divider
of its clock.
-/

import Mathlib

namespace XR872.Spi

inductive HalStatus where
  | ok
  | error
  | busy
  | timeout
  | invalid
deriving DecidableEq, Repr

inductive SpiMode where
  | slave
  | master
deriving DecidableEq, Repr

inductive SpiFirstBit where
  | msb
  | lsb
deriving DecidableEq, Repr

inductive SpiSclkMode where
  | mode0
  | mode1
  | mode2
  | mode3
deriving DecidableEq, Repr

inductive SpiOperationMode where
  | dma
  | poll
deriving DecidableEq, Repr

/-- The fields, and the bytes behind the last one, which `HAL_Memcmp` compares
as well. -/
structure SpiConfig where
  mode : SpiMode
  opMode : SpiOperationMode
  firstBit : SpiFirstBit
  sclk : BitVec 32
  sclkMode : SpiSclkMode
  padding : BitVec 24
deriving DecidableEq, Repr

def spiConfigDefault : SpiConfig :=
  { mode := .master
    opMode := .poll
    firstBit := .msb
    sclk := 6000000
    sclkMode := .mode0
    padding := 0 }

/-- Fields of `CTRL`, `TCTRL` and `CCTR`. -/
structure SpiRegs where
  mode : SpiMode
  firstBit : SpiFirstBit
  sclkMode : SpiSclkMode
  drs : Bool
  cdr1 : BitVec 4
  cdr2 : BitVec 8
deriving DecidableEq, Repr

namespace SpiRegs

def divisor (regs : SpiRegs) : Nat :=
  if regs.drs then 2 * (regs.cdr2.toNat + 1) else 2 ^ regs.cdr1.toNat

def Divides (regs : SpiRegs) (mclk sclk : BitVec 32) : Prop :=
  sclk ≠ 0 ∧ mclk.toNat = regs.divisor * sclk.toNat

instance (regs : SpiRegs) (mclk sclk : BitVec 32) :
    Decidable (regs.Divides mclk sclk) :=
  inferInstanceAs (Decidable (_ ∧ _))

def Hold (regs : SpiRegs) (mclk : BitVec 32) (config : SpiConfig) : Prop :=
  regs.mode = config.mode ∧ regs.firstBit = config.firstBit ∧
    regs.sclkMode = config.sclkMode ∧ regs.Divides mclk config.sclk

instance (regs : SpiRegs) (mclk : BitVec 32) (config : SpiConfig) :
    Decidable (regs.Hold mclk config) :=
  inferInstanceAs (Decidable (_ ∧ _ ∧ _ ∧ _))

end SpiRegs

def Expressible (mclk sclk : BitVec 32) : Prop :=
  sclk ≠ 0 ∧
    ((∃ n < 16, mclk.toNat = 2 ^ n * sclk.toNat) ∨
      ∃ n < 256, mclk.toNat = 2 * (n + 1) * sclk.toNat)

instance (mclk sclk : BitVec 32) : Decidable (Expressible mclk sclk) :=
  inferInstanceAs (Decidable (_ ∧ (_ ∨ _)))

/-- The shifts until a power of two is one; a word has 32 bits. -/
def halvings : Nat → Nat → Nat
  | 0, _ => 0
  | bits + 1, div => if div = 1 then 0 else halvings bits (div / 2) + 1

def spiSetClkDiv (regs : SpiRegs) (mclk sclk : BitVec 32) :
    HalStatus × SpiRegs :=
  if mclk < sclk ∨ sclk = 0 then (.error, regs)
  else
    let div := mclk.toNat / sclk.toNat
    let mod := mclk.toNat % sclk.toNat
    if mod = 0 ∧ div &&& (div - 1) = 0 then
      (.ok, { regs with
        drs := false
        cdr1 := BitVec.ofNat 4 (halvings 32 div) })
    else if mod = 0 ∧ div % 2 = 0 then
      (.ok, { regs with
        drs := true
        cdr2 := BitVec.ofNat 8 (div / 2 - 1) })
    else (.error, regs)

theorem halvings_pow (bits n : Nat) (within : n < bits) :
    halvings bits (2 ^ n) = n := by
  induction bits generalizing n with
  | zero => omega
  | succ bits ih =>
      cases n with
      | zero => rfl
      | succ n =>
          have more : 2 ^ (n + 1) ≠ 1 := by
            have := Nat.one_lt_two_pow (Nat.succ_ne_zero n)
            omega
          have half : 2 ^ (n + 1) / 2 = 2 ^ n := by
            rw [Nat.pow_succ, Nat.mul_div_cancel _ (by decide)]
          rw [halvings, if_neg more, half, ih n (by omega)]

theorem spiSetClkDiv_keeps (regs : SpiRegs) (mclk sclk : BitVec 32) :
    (spiSetClkDiv regs mclk sclk).2.mode = regs.mode ∧
      (spiSetClkDiv regs mclk sclk).2.firstBit = regs.firstBit ∧
      (spiSetClkDiv regs mclk sclk).2.sclkMode = regs.sclkMode := by
  unfold spiSetClkDiv
  dsimp only
  split_ifs <;> exact ⟨rfl, rfl, rfl⟩

theorem SpiRegs.Divides.expressible {regs : SpiRegs} {mclk sclk : BitVec 32}
    (divides : regs.Divides mclk sclk) : Expressible mclk sclk := by
  obtain ⟨some_sclk, exactly⟩ := divides
  refine ⟨some_sclk, ?_⟩
  unfold SpiRegs.divisor at exactly
  cases drs : regs.drs with
  | false =>
      rw [if_neg (by simp [drs])] at exactly
      exact .inl ⟨regs.cdr1.toNat, regs.cdr1.isLt, exactly⟩
  | true =>
      rw [if_pos drs] at exactly
      exact .inr ⟨regs.cdr2.toNat, regs.cdr2.isLt, exactly⟩

theorem spiSetClkDiv_of_mul (regs : SpiRegs) {mclk sclk : BitVec 32}
    {div : Nat} (some_sclk : sclk ≠ 0) (some_div : 0 < div)
    (exactly : mclk.toNat = div * sclk.toNat) :
    spiSetClkDiv regs mclk sclk =
      if div &&& (div - 1) = 0 then
        (.ok, { regs with
          drs := false
          cdr1 := BitVec.ofNat 4 (halvings 32 div) })
      else if div % 2 = 0 then
        (.ok, { regs with
          drs := true
          cdr2 := BitVec.ofNat 8 (div / 2 - 1) })
      else (.error, regs) := by
  have positive : 0 < sclk.toNat := by
    rw [Nat.pos_iff_ne_zero]
    exact fun zero => some_sclk (BitVec.eq_of_toNat_eq zero)
  have notLess : ¬ (mclk < sclk ∨ sclk = 0) := by
    rintro (less | zero)
    · have below : mclk.toNat < sclk.toNat := BitVec.lt_def.mp less
      have above := Nat.le_mul_of_pos_left sclk.toNat some_div
      omega
    · exact some_sclk zero
  have quotient : mclk.toNat / sclk.toNat = div := by
    rw [exactly, Nat.mul_div_cancel _ positive]
  have remainder : mclk.toNat % sclk.toNat = 0 := by
    rw [exactly, Nat.mul_mod_left]
  unfold spiSetClkDiv
  rw [if_neg notLess]
  dsimp only
  rw [quotient, remainder]
  simp only [true_and]

/-- The divider is the right one exactly if the register can express it. -/
theorem spiSetClkDiv_divides (regs : SpiRegs) (mclk sclk : BitVec 32) :
    (spiSetClkDiv regs mclk sclk).1 = .ok ∧
        (spiSetClkDiv regs mclk sclk).2.Divides mclk sclk ↔
      Expressible mclk sclk := by
  constructor
  · exact fun set => set.2.expressible
  · rintro ⟨some_sclk, power | even⟩
    · obtain ⟨n, within, exactly⟩ := power
      have isPower : 2 ^ n &&& (2 ^ n - 1) = 0 :=
        (Nat.and_sub_one_eq_zero_iff_isPowerOfTwo (by positivity)).mpr ⟨n, rfl⟩
      rw [spiSetClkDiv_of_mul regs some_sclk (by positivity) exactly,
        if_pos isPower]
      refine ⟨rfl, some_sclk, ?_⟩
      rw [exactly, halvings_pow 32 n (by omega)]
      simp [SpiRegs.divisor, Nat.mod_eq_of_lt within]
    · obtain ⟨n, within, exactly⟩ := even
      rw [spiSetClkDiv_of_mul regs some_sclk (by positivity) exactly]
      split_ifs with isPower isEven
      · -- also a power of two, of those the other field expresses
        obtain ⟨k, asPower⟩ :=
          (Nat.and_sub_one_eq_zero_iff_isPowerOfTwo (by positivity)).mp isPower
        have small : k < 16 := by
          by_contra large
          have grown : 2 ^ 16 ≤ 2 ^ k :=
            Nat.pow_le_pow_right (by decide) (by omega)
          omega
        refine ⟨rfl, some_sclk, ?_⟩
        rw [exactly, asPower, halvings_pow 32 k (by omega)]
        simp [SpiRegs.divisor, Nat.mod_eq_of_lt small]
      · refine ⟨rfl, some_sclk, ?_⟩
        have half : 2 * (n + 1) / 2 - 1 = n := by omega
        rw [exactly, half]
        simp [SpiRegs.divisor, Nat.mod_eq_of_lt within]
      · omega

end XR872.Spi
