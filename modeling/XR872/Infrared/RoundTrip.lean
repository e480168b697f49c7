/-
A code sent is the code received, its bytes the other way round.

The marks and spaces of a sender lie on the right side of the bounds of the
receiver; from there on it is one step for each bit.
-/

import XR872.Infrared.Recut

namespace XR872.Infrared

open BitView
open RunLengths

/-! ### What is sent -/

theorem items_append (first second : List Byte) :
    items (first ++ second) = items first ++ items second :=
  List.map_append

/-- What `irtxBits` looks at. -/
def sentBits : Nat → Byte → List Bool
  | 0, _ => []
  | count + 1, txCode =>
      decide (txCode &&& 0x01 ≠ 0) :: sentBits count (txCode >>> 1)

theorem sentBits_eq (txCode : Byte) :
    sentBits 8 txCode = (List.range 8).map txCode.getLsbD := by
  revert txCode
  decide +kernel

section

variable (us560 us1680 : Nat)

def spaceTime (bit : Bool) : Nat := if bit then us1680 else us560

def bitItems (bit : Bool) : List (Bool × Nat) :=
  [(true, us560), (false, spaceTime us560 us1680 bit)]

theorem items_mark {time : Nat} (short : time < 0x80) (buf : List Byte) :
    items (mark time :: buf) = (true, time) :: items buf := by
  have item : ∀ time < 0x80,
      (high (mark time), (mark time &&& 0x7F).toNat) = (true, time) := by
    decide +kernel
  exact congrArg (· :: items buf) (item time short)

theorem items_space {time : Nat} (short : time < 0x80) (buf : List Byte) :
    items (space time :: buf) = (false, time) :: items buf := by
  have item : ∀ time < 0x80,
      (high (space time), (space time &&& 0x7F).toNat) = (false, time) := by
    decide +kernel
  exact congrArg (· :: items buf) (item time short)

variable {us560 us1680}

theorem items_irtxBits (short : us560 < 0x80) (long : us1680 < 0x80)
    (count : Nat) (txCode : Byte) :
    items (irtxBits us560 us1680 count txCode) =
      (sentBits count txCode).flatMap (bitItems us560 us1680) := by
  induction count generalizing txCode with
  | zero => rfl
  | succ count ih =>
      rw [sentBits, List.flatMap_cons, ← ih, irtxBits, items_append]
      congr 1
      by_cases set : txCode &&& 0x01 ≠ 0
      · rw [if_pos set, decide_eq_true set, items_mark short,
          items_space long]
        rfl
      · rw [if_neg set, decide_eq_false set, items_mark short,
          items_space short]
        rfl

theorem items_codes (short : us560 < 0x80) (long : us1680 < 0x80)
    (txCodes : List Byte) :
    items (txCodes.flatMap (irtxBits us560 us1680 8)) =
      (txCodes.flatMap (sentBits 8)).flatMap (bitItems us560 us1680) := by
  induction txCodes with
  | nil => rfl
  | cons txCode rest ih =>
      rw [List.flatMap_cons, items_append, items_irtxBits short long, ih,
        List.flatMap_cons, List.flatMap_append]

end

/-! ### What is received -/

/-- The bits that come in, put into a code from `bitCnt` on. -/
def collect : List Bool → Nat → BitVec 32 → BitVec 32
  | [], _, code => code
  | bit :: bits, bitCnt, code =>
      collect bits (bitCnt + 1)
        (if bit then code ||| ((1 : BitVec 32) <<< bitCnt) else code)

theorem getLsbD_collect (bits : List Bool) (bitCnt : Nat)
    (code : BitVec 32) (i : Nat) (within : i < 32) :
    (collect bits bitCnt code).getLsbD i =
      (code.getLsbD i ||
        (decide (bitCnt ≤ i) && bits.getD (i - bitCnt) false)) := by
  induction bits generalizing bitCnt code with
  | nil =>
      rw [collect, List.getD_nil, Bool.and_false, Bool.or_false]
  | cons bit bits ih =>
      rw [collect, ih]
      have set : (if bit then code ||| ((1 : BitVec 32) <<< bitCnt)
          else code).getLsbD i =
          (code.getLsbD i || (bit && decide (i = bitCnt))) := by
        cases bit with
        | false => simp
        | true =>
            have power : (1 : BitVec 32) <<< bitCnt = BitVec.twoPow 32 bitCnt :=
              (BitVec.twoPow_eq ..).symm
            rw [if_pos rfl, BitVec.getLsbD_or, power, BitVec.getLsbD_twoPow]
            by_cases here : i = bitCnt
            · subst here
              simp [within]
            · simp [here, Ne.symm here]
      rw [set]
      rcases Nat.lt_trichotomy i bitCnt with before | here | behind
      · simp [Nat.not_le.mpr before, Nat.ne_of_lt before,
          Nat.not_le.mpr (Nat.lt_succ_of_lt before)]
      · subst here
        simp
      · have split : i - bitCnt = (i - (bitCnt + 1)) + 1 := by omega
        rw [split, List.getD_cons_succ]
        simp [Nat.ne_of_gt behind, Nat.le_of_lt behind, behind]

/-- Times of a sender, counted by the receiver, on the right side of its
bounds. -/
structure Fits (rx : IrRx) (factor us560 us1680 : Nat) : Prop where
  pulse : ¬ rx.pmax < BitVec.ofNat 32 (factor * us560)
  gap : ∀ bit, ¬ rx.dmax <
    BitVec.ofNat 32 (factor * spaceTime us560 us1680 bit)
  bit : ∀ bit, rx.dmid <
    BitVec.ofNat 32 (factor * spaceTime us560 us1680 bit) ↔ bit = true

section

variable {rx : IrRx} {factor us560 us1680 : Nat}

theorem necStep_bit (fits : Fits rx factor us560 us1680) (bit : Bool)
    (bitCnt : Nat) (code : BitVec 32) :
    necStep rx
        (.gap (BitVec.ofNat 32 (factor * spaceTime us560 us1680 bit))
          bitCnt code) true (factor * us560) =
      if bitCnt + 1 = 32 then .decoded (collect [bit] bitCnt code)
      else .pulse (BitVec.ofNat 32 (factor * us560)) (bitCnt + 1)
        (collect [bit] bitCnt code) := by
  unfold necStep
  dsimp only
  rw [if_neg (fits.gap bit)]
  cases bit with
  | true => rw [if_pos ((fits.bit true).mpr rfl)]; rfl
  | false =>
      rw [if_neg fun long => Bool.false_ne_true ((fits.bit false).mp long)]
      rfl

theorem takeAll_bits (fits : Fits rx factor us560 us1680)
    (bits : List Bool) (bit : Bool) (bitCnt : Nat) (code : BitVec 32)
    (all : bitCnt + 1 + bits.length = 32) (rest : List (Bool × Nat)) :
    takeAll (necStep rx)
        (.gap (BitVec.ofNat 32 (factor * spaceTime us560 us1680 bit))
          bitCnt code)
        (scale factor
          (bits.flatMap (bitItems us560 us1680) ++ (true, us560) :: rest)) =
      .decoded (collect (bit :: bits) bitCnt code) := by
  induction bits generalizing bit bitCnt code with
  | nil =>
      change takeAll (necStep rx) (necStep rx _ true (factor * us560))
        (scale factor rest) = _
      rw [necStep_bit fits, if_pos (by simpa using all), takeAll_decoded]
  | cons next bits ih =>
      have more : bitCnt + 1 ≠ 32 := by
        rw [List.length_cons] at all
        omega
      have fewer : bitCnt + 1 + 1 + bits.length = 32 := by
        rw [List.length_cons] at all
        omega
      change takeAll (necStep rx)
        (necStep rx (necStep rx _ true (factor * us560)) false
          (factor * spaceTime us560 us1680 next))
        (scale factor
          (bits.flatMap (bitItems us560 us1680) ++ (true, us560) :: rest)) = _
      rw [necStep_bit fits, if_neg more]
      have opened : necStep rx
          (.pulse (BitVec.ofNat 32 (factor * us560)) (bitCnt + 1)
            (collect [bit] bitCnt code)) false
          (factor * spaceTime us560 us1680 next) =
          .gap (BitVec.ofNat 32 (factor * spaceTime us560 us1680 next))
            (bitCnt + 1) (collect [bit] bitCnt code) :=
        if_neg fits.pulse
      rw [opened, ih next _ _ fewer]
      rfl

end

theorem fits (clock : IrClock) (tx : IrTx) (known : irTx clock = some tx) :
    Fits (irRx clock) (samples clock) tx.us560 tx.us1680 := by
  cases clock with
  | other => exact absurd known (by simp [irTx])
  | k32 =>
      cases known
      exact ⟨by decide, by decide, by decide⟩
  | m26 =>
      cases known
      exact ⟨by decide, by decide, by decide⟩
  | m24 =>
      cases known
      exact ⟨by decide, by decide, by decide⟩

theorem takeAll_leader (clock : IrClock) (tx : IrTx)
    (known : irTx clock = some tx) (bit : Bool) (rest : List (Bool × Nat)) :
    takeAll (necStep (irRx clock))
        (.lead1 ((irRx clock).activeDelay >>> 1))
        (scale (samples clock)
          (items [mark tx.nineMs1, mark tx.nineMs2, space tx.fourP5Ms] ++
            (bitItems tx.us560 tx.us1680 bit ++ rest))) =
      takeAll (necStep (irRx clock))
        (.gap (BitVec.ofNat 32
          (samples clock * spaceTime tx.us560 tx.us1680 bit)) 0 0)
        (scale (samples clock) rest) := by
  have leader : takeAll (necStep (irRx clock))
      (.lead1 ((irRx clock).activeDelay >>> 1))
      (scale (samples clock)
        (items [mark tx.nineMs1, mark tx.nineMs2, space tx.fourP5Ms] ++
          bitItems tx.us560 tx.us1680 bit)) =
      .gap (BitVec.ofNat 32
        (samples clock * spaceTime tx.us560 tx.us1680 bit)) 0 0 := by
    cases clock with
    | other => exact absurd known (by simp [irTx])
    | k32 =>
        cases known
        revert bit
        decide
    | m26 =>
        cases known
        revert bit
        decide
    | m24 =>
        cases known
        revert bit
        decide
  rw [← List.append_assoc, scale_append, takeAll_append, leader]

def codeBits (irTxCode : BitVec 32) : List Bool :=
  [(irTxCode >>> 24).setWidth 8, (irTxCode >>> 16).setWidth 8,
    (irTxCode >>> 8).setWidth 8, (irTxCode &&& 0xFF).setWidth 8].flatMap
      (sentBits 8)

theorem getLsbD_byteReversed (code : BitVec 32) (i : Nat)
    (within : i < 32) :
    (byteReversed code).getLsbD i =
      code.getLsbD (8 * (3 - i / 8) + i % 8) := by
  change @BitVec.getLsbD (8 + 8 + 8 + 8)
    (code.extractLsb' 0 8 ++ code.extractLsb' 8 8 ++
      code.extractLsb' 16 8 ++ code.extractLsb' 24 8) i = _
  simp only [BitVec.getLsbD_append, BitVec.getLsbD_extractLsb']
  interval_cases i <;> simp

theorem collect_codeBits (irTxCode : BitVec 32) :
    collect (codeBits irTxCode) 0 0 = byteReversed irTxCode := by
  apply BitVec.eq_of_getLsbD_eq
  intro i within
  rw [getLsbD_collect _ _ _ _ within, getLsbD_byteReversed _ _ within]
  unfold codeBits
  simp only [List.flatMap_cons, List.flatMap_nil, sentBits_eq]
  interval_cases i <;> simp [List.range_succ]

theorem items_packet (clock : IrClock) (tx : IrTx)
    (known : irTx clock = some tx) (irTxCode : BitVec 32) :
    items (irtxNecPacketCode clock irTxCode) =
      items [mark tx.nineMs1, mark tx.nineMs2, space tx.fourP5Ms] ++
        ((codeBits irTxCode).flatMap (bitItems tx.us560 tx.us1680) ++
          (true, tx.us560) ::
            items [space tx.us560, 0x7F, 0x7F, 0x7F, 0x7F]) := by
  have short : tx.us560 < 0x80 ∧ tx.us1680 < 0x80 := by
    cases clock with
    | other => exact absurd known (by simp [irTx])
    | k32 => cases known; decide
    | m26 => cases known; decide
    | m24 => cases known; decide
  unfold irtxNecPacketCode
  rw [known]
  dsimp only [Option.map_some, Option.getD_some]
  rw [items_append, items_append, items_codes short.1 short.2,
    List.append_assoc, items_mark short.1]
  rfl

theorem codeBits_length (irTxCode : BitVec 32) :
    (codeBits irTxCode).length = 32 := rfl

theorem irrxNecPacketDeCode_recut (clock : IrClock)
    (known : clock ≠ .other) (irTxCode : BitVec 32) (buf : List Byte)
    (recut : Recut clock irTxCode buf) :
    irrxNecPacketDeCode clock buf = byteReversed irTxCode := by
  obtain ⟨tx, isTx⟩ : ∃ tx, irTx clock = some tx := by
    cases clock with
    | other => exact absurd rfl known
    | k32 => exact ⟨_, rfl⟩
    | m26 => exact ⟨_, rfl⟩
    | m24 => exact ⟨_, rfl⟩
  obtain ⟨bit, bits, order⟩ : ∃ bit bits, codeBits irTxCode = bit :: bits :=
    ⟨_, _, rfl⟩
  have all : 0 + 1 + bits.length = 32 := by
    have length := codeBits_length irTxCode
    rw [order, List.length_cons] at length
    omega
  rw [irrxNecPacketDeCode_eq,
    takeAll_recut (necStep_additive _) _ _ _ recut,
    items_packet clock tx isTx, order, List.flatMap_cons, List.append_assoc,
    takeAll_leader clock tx isTx, takeAll_bits (fits clock tx isTx) _ _ _ _ all,
    ← order, collect_codeBits]
  rfl

theorem byteReversed_irNecCode (add key : Byte) :
    byteReversed (irNecCode add key) = ~~~key ++ key ++ ~~~add ++ add := by
  apply BitVec.eq_of_getLsbD_eq
  intro i within
  rw [getLsbD_byteReversed _ _ within]
  unfold irNecCode
  simp only [BitVec.getLsbD_append]
  interval_cases i <;> simp

/-- Every code comes back with its first byte last, however its marks and
spaces are cut, when a sample of the sender is as many of the receiver as its
clock says; an address and a key come back as address, inverted address, key
and inverted key. -/
theorem round_trip (clock : IrClock) (known : clock ≠ .other) :
    (∀ irTxCode buf, Recut clock irTxCode buf →
      irrxNecPacketDeCode clock buf = byteReversed irTxCode) ∧
    ∀ add key buf, Recut clock (irNecCode add key) buf →
      irrxNecPacketDeCode clock buf = ~~~key ++ key ++ ~~~add ++ add ∧
        (irNecCode add key >>> 24).setWidth 8 = add := by
  refine ⟨irrxNecPacketDeCode_recut clock known, ?_⟩
  intro add key buf recut
  constructor
  · rw [irrxNecPacketDeCode_recut clock known _ _ recut,
      byteReversed_irNecCode]
  · apply BitVec.eq_of_getLsbD_eq
    intro i within
    unfold irNecCode
    interval_cases i <;> simp

/-- The sender's own output, uncut, at 26 MHz. -/
theorem round_trip_uncut :
    IrClock.m26 ≠ .other ∧
      Recut .m26 (irNecCode 0x59 0x16)
        (irtxNecPacketCode .m26 (irNecCode 0x59 0x16)) ∧
      irrxNecPacketDeCode .m26
        (irtxNecPacketCode .m26 (irNecCode 0x59 0x16)) = 0xE916A659 :=
  have recut := (scale_one _).symm
  ⟨by decide, recut, ((round_trip .m26 (by decide)).2 0x59 0x16 _ recut).1⟩

/-- In the 32 kHz build what is sent, taken as it is, is not what is
received. -/
theorem sent_at_32K_as_it_is :
    runs (items (irtxNecPacketCode .k32 0x01000000)) =
        scale 1 (runs (items (irtxNecPacketCode .k32 0x01000000))) ∧
      irrxNecPacketDeCode .k32 (irtxNecPacketCode .k32 0x01000000) = 0 ∧
      byteReversed 0x01000000 ≠ 0 :=
  ⟨(scale_one _).symm, by decide +kernel, by decide⟩

end XR872.Infrared
