/-
What is sent is received.

The receiver adds up times of one level, so it does not matter how a mark or a
space is cut. In the 32 kHz build it counts twice as fast as the sender.
-/

import XR872.Infrared.Nec
import XR872.Library.RunLength

namespace XR872.Infrared

open BitView
open RunLengths

/-- A byte as level and time. -/
def items (buf : List Byte) : List (Bool × Nat) :=
  buf.map fun val => (high val, (val &&& 0x7F).toNat)

/-- How many samples the receiver takes in one of the sender's: the 32 kHz
sender divides its clock by 2. -/
def samples : IrClock → Nat
  | .k32 => 2
  | _ => 1

/-- Every mark and every space in any number of bytes, its time the one sent,
in samples of the receiver. -/
def Recut (clock : IrClock) (code : BitVec 32) (buf : List Byte) : Prop :=
  runs (items buf) =
    scale (samples clock) (runs (items (irtxNecPacketCode clock code)))

/-- The first byte last. -/
def byteReversed (code : BitVec 32) : BitVec 32 :=
  code.extractLsb' 0 8 ++ code.extractLsb' 8 8 ++ code.extractLsb' 16 8 ++
    code.extractLsb' 24 8

/-! ### The receiver adds up times -/

inductive NecState where
  | lead1 (len : BitVec 32)
  | lead0 (len : BitVec 32)
  | pulse (len : BitVec 32) (bitCnt : Nat) (code : BitVec 32)
  | gap (len : BitVec 32) (bitCnt : Nat) (code : BitVec 32)
  | decoded (code : BitVec 32)
  | failed
deriving DecidableEq

section

variable (rx : IrRx)

def necStep (state : NecState) (level : Bool) (time : Nat) : NecState :=
  let time := BitVec.ofNat 32 time
  match state, level with
  | .lead1 len, true => .lead1 (len + time)
  | .lead1 len, false =>
      if rx.l1Min < len then .lead0 time else .lead1 0
  | .lead0 len, false => .lead0 (len + time)
  | .lead0 len, true =>
      if rx.l0Min < len then .pulse time 0 0 else .lead0 0
  | .pulse len bitCnt code, true => .pulse (len + time) bitCnt code
  | .pulse len bitCnt code, false =>
      if rx.pmax < len then .failed else .gap time bitCnt code
  | .gap len bitCnt code, false => .gap (len + time) bitCnt code
  | .gap len bitCnt code, true =>
      if rx.dmax < len then .failed
      else
        let code :=
          if rx.dmid < len then code ||| ((1 : BitVec 32) <<< bitCnt)
          else code
        if bitCnt + 1 = 32 then .decoded code
        else .pulse time (bitCnt + 1) code
  | .decoded code, _ => .decoded code
  | .failed, _ => .failed

/-- What is returned when the buffer ends. -/
def NecState.code : NecState → Option (BitVec 32)
  | .lead1 _ => none
  | .lead0 _ => none
  | .pulse _ _ code => some code
  | .gap _ _ code => some code
  | .decoded code => some code
  | .failed => none

theorem necStep_additive : Additive (necStep rx) := by
  have none : ∀ bound : BitVec 32, ¬ bound < 0 := fun bound =>
    BitVec.not_lt_zero
  intro state level first second
  have sum : BitVec.ofNat 32 (first + second) =
      BitVec.ofNat 32 first + BitVec.ofNat 32 second := BitVec.ofNat_add ..
  cases state with
  | decoded code => rfl
  | failed => rfl
  | lead1 len =>
      cases level with
      | true =>
          unfold necStep
          dsimp only
          rw [sum, BitVec.add_assoc]
      | false =>
          unfold necStep
          dsimp only
          by_cases long : rx.l1Min < len
          · rw [if_pos long, if_pos long, sum]
          · rw [if_neg long, if_neg long]
            dsimp only
            rw [if_neg (none _)]
  | lead0 len =>
      cases level with
      | true =>
          unfold necStep
          dsimp only
          by_cases long : rx.l0Min < len
          · rw [if_pos long, if_pos long, sum]
          · rw [if_neg long, if_neg long]
            dsimp only
            rw [if_neg (none _)]
      | false =>
          unfold necStep
          dsimp only
          rw [sum, BitVec.add_assoc]
  | pulse len bitCnt code =>
      cases level with
      | true =>
          unfold necStep
          dsimp only
          rw [sum, BitVec.add_assoc]
      | false =>
          unfold necStep
          dsimp only
          by_cases long : rx.pmax < len
          · rw [if_pos long, if_pos long]
          · rw [if_neg long, if_neg long, sum]
  | gap len bitCnt code =>
      cases level with
      | true =>
          unfold necStep
          dsimp only
          by_cases long : rx.dmax < len
          · rw [if_pos long, if_pos long]
          · rw [if_neg long, if_neg long]
            by_cases last : bitCnt + 1 = 32
            · rw [if_pos last, if_pos last]
            · rw [if_neg last, if_neg last, sum]
      | false =>
          unfold necStep
          dsimp only
          rw [sum, BitVec.add_assoc]

/-! ### The loops as one -/

theorem takeAll_decoded (code : BitVec 32) (rest : List (Bool × Nat)) :
    takeAll (necStep rx) (.decoded code) rest = .decoded code := by
  induction rest with
  | nil => rfl
  | cons item rest ih => exact ih

theorem takeAll_failed (rest : List (Bool × Nat)) :
    takeAll (necStep rx) .failed rest = .failed := by
  induction rest with
  | nil => rfl
  | cons item rest ih => exact ih

theorem time_eq (val : Byte) :
    BitVec.ofNat 32 (val &&& 0x7F).toNat = time val :=
  BitVec.ofNat_toNat ..

theorem takeAll_items (state : NecState) (val : Byte) (buf : List Byte) :
    takeAll (necStep rx) state (items (val :: buf)) =
      takeAll (necStep rx) (necStep rx state (high val) (val &&& 0x7F).toNat)
        (items buf) := rfl

theorem zero_time (val : Byte) : 0 + time val = time val :=
  BitVec.zero_add _

@[simp] theorem necStep_pulse_high (len : BitVec 32) (bitCnt : Nat)
    (code : BitVec 32) (val : Byte) :
    necStep rx (.pulse len bitCnt code) true (val &&& 0x7F).toNat =
      .pulse (len + time val) bitCnt code := by
  rw [← time_eq]
  rfl

@[simp] theorem necStep_pulse_low (len : BitVec 32) (bitCnt : Nat)
    (code : BitVec 32) (val : Byte) :
    necStep rx (.pulse len bitCnt code) false (val &&& 0x7F).toNat =
      if rx.pmax < len then .failed else .gap (time val) bitCnt code := by
  rw [← time_eq]
  rfl

@[simp] theorem necStep_gap_low (len : BitVec 32) (bitCnt : Nat)
    (code : BitVec 32) (val : Byte) :
    necStep rx (.gap len bitCnt code) false (val &&& 0x7F).toNat =
      .gap (len + time val) bitCnt code := by
  rw [← time_eq]
  rfl

@[simp] theorem necStep_gap_high (len : BitVec 32) (bitCnt : Nat)
    (code : BitVec 32) (val : Byte) :
    necStep rx (.gap len bitCnt code) true (val &&& 0x7F).toNat =
      if rx.dmax < len then .failed
      else
        let code :=
          if rx.dmid < len then code ||| ((1 : BitVec 32) <<< bitCnt)
          else code
        if bitCnt + 1 = 32 then .decoded code
        else .pulse (time val) (bitCnt + 1) code := by
  rw [← time_eq]
  rfl

@[simp] theorem necStep_lead0_low (len : BitVec 32) (val : Byte) :
    necStep rx (.lead0 len) false (val &&& 0x7F).toNat =
      .lead0 (len + time val) := by
  rw [← time_eq]
  rfl

@[simp] theorem necStep_lead0_high (len : BitVec 32) (val : Byte) :
    necStep rx (.lead0 len) true (val &&& 0x7F).toNat =
      if rx.l0Min < len then .pulse (time val) 0 0 else .lead0 0 := by
  rw [← time_eq]
  rfl

@[simp] theorem necStep_lead1_high (len : BitVec 32) (val : Byte) :
    necStep rx (.lead1 len) true (val &&& 0x7F).toNat =
      .lead1 (len + time val) := by
  rw [← time_eq]
  rfl

@[simp] theorem necStep_lead1_low (len : BitVec 32) (val : Byte) :
    necStep rx (.lead1 len) false (val &&& 0x7F).toNat =
      if rx.l1Min < len then .lead0 (time val) else .lead1 0 := by
  rw [← time_eq]
  rfl

theorem decodeBits_eq (buf : List Byte) (len : BitVec 32) (bitCnt : Nat)
    (code : BitVec 32) :
    decodeBits rx buf true len bitCnt code =
        (takeAll (necStep rx) (.pulse len bitCnt code) (items buf)).code ∧
      decodeBits rx buf false len bitCnt code =
        (takeAll (necStep rx) (.gap len bitCnt code) (items buf)).code := by
  induction buf generalizing len bitCnt code with
  | nil => exact ⟨rfl, rfl⟩
  | cons val buf ih =>
      rw [takeAll_items, takeAll_items]
      unfold decodeBits
      cases high val with
      | true =>
          rw [necStep_pulse_high, necStep_gap_high, if_pos rfl, if_pos rfl]
          refine ⟨(ih _ _ _).1, ?_⟩
          by_cases long : rx.dmax < len
          · rw [if_pos long, if_pos long, takeAll_failed]
            rfl
          · rw [if_neg long, if_neg long]
            dsimp only
            by_cases last : bitCnt + 1 = 32
            · rw [if_pos last, if_pos last, takeAll_decoded]
              rfl
            · rw [if_neg last, if_neg last]
              exact (ih _ _ _).1
      | false =>
          rw [necStep_pulse_low, necStep_gap_low, if_neg Bool.false_ne_true,
            if_neg Bool.false_ne_true]
          refine ⟨?_, (ih _ _ _).2⟩
          by_cases long : rx.pmax < len
          · rw [if_pos long, if_pos long, takeAll_failed]
            rfl
          · rw [if_neg long, if_neg long]
            exact (ih _ _ _).2

def fromLead0 (found : Byte × BitVec 32 × List Byte) : Option (BitVec 32) :=
  if ¬ high found.1 ∨ found.2.1 ≤ rx.l0Min then none
  else decodeBits rx found.2.2 true 0 0 0

theorem fromLead0_eq (buf : List Byte) (val : Byte) (len : BitVec 32)
    (open_ : ¬ high val ∨ len ≤ rx.l0Min) :
    fromLead0 rx (findLead0 rx buf val len) =
      (takeAll (necStep rx) (.lead0 len) (items buf)).code := by
  induction buf generalizing val len with
  | nil => exact if_pos open_
  | cons next buf ih =>
      rw [takeAll_items]
      unfold findLead0
      cases isHigh : high next with
      | true =>
          rw [necStep_lead0_high, if_pos rfl]
          by_cases long : rx.l0Min < len
          · rw [if_pos long, if_pos long]
            have first : decodeBits rx (next :: buf) true 0 0 0 =
                decodeBits rx buf true (time next) 0 0 := by
              rw [decodeBits, if_pos isHigh, zero_time]
            unfold fromLead0
            rw [if_neg, ← (decodeBits_eq rx buf (time next) 0 0).1]
            · exact first
            · rintro (low | short)
              · exact low isHigh
              · exact BitVec.not_lt.mpr short long
          · rw [if_neg long, if_neg long]
            exact ih next 0 (.inr (BitVec.not_lt.mp BitVec.not_lt_zero))
      | false =>
          rw [necStep_lead0_low, if_neg Bool.false_ne_true]
          exact ih next _ (.inl (by rw [isHigh]; exact Bool.false_ne_true))

def fromLead1 (found : Byte × BitVec 32 × List Byte) : Option (BitVec 32) :=
  if high found.1 ∨ found.2.1 ≤ rx.l1Min then none
  else fromLead0 rx (findLead0 rx found.2.2 found.1 0)

theorem fromLead1_eq (buf : List Byte) (val : Byte) (len : BitVec 32)
    (open_ : high val ∨ len ≤ rx.l1Min) :
    fromLead1 rx (findLead1 rx buf val len) =
      (takeAll (necStep rx) (.lead1 len) (items buf)).code := by
  induction buf generalizing val len with
  | nil => exact if_pos open_
  | cons next buf ih =>
      rw [takeAll_items]
      unfold findLead1
      cases isHigh : high next with
      | true =>
          rw [necStep_lead1_high, if_pos rfl]
          exact ih next _ (.inl isHigh)
      | false =>
          rw [necStep_lead1_low, if_neg Bool.false_ne_true]
          by_cases long : rx.l1Min < len
          · rw [if_pos long, if_pos long]
            have low : ¬ high next = true := by
              rw [isHigh]
              exact Bool.false_ne_true
            have first : findLead0 rx (next :: buf) next 0 =
                findLead0 rx buf next (time next) := by
              rw [findLead0, if_neg low, zero_time]
            unfold fromLead1
            rw [if_neg, ← fromLead0_eq rx buf next _ (.inl low)]
            · exact congrArg (fromLead0 rx) first
            · rintro (isHigh' | short)
              · exact low isHigh'
              · exact BitVec.not_lt.mpr short long
          · rw [if_neg long, if_neg long]
            exact ih next 0 (.inr (BitVec.not_lt.mp BitVec.not_lt_zero))

end

theorem irrxNecPacketDeCode_eq (clock : IrClock) (buf : List Byte) :
    irrxNecPacketDeCode clock buf =
      ((takeAll (necStep (irRx clock))
        (.lead1 ((irRx clock).activeDelay >>> 1)) (items buf)).code).getD
          (-1) := by
  have open_ : high 0 ∨
      (irRx clock).activeDelay >>> 1 ≤ (irRx clock).l1Min := by
    cases clock <;> decide
  rw [← fromLead1_eq (irRx clock) buf 0 _ open_]
  unfold irrxNecPacketDeCode fromLead1 fromLead0
  dsimp only
  split
  · rfl
  · split
    · rfl
    · rfl

end XR872.Infrared
