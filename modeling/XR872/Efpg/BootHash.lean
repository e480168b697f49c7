/-
The comparison and the correction of the boot hash, as operations on bit
positions.

The nested loops of `efpg_boot_hash_cmp` collect the positions at which two
buffers differ, in ascending order, and give up at the third. Inverting the
collected positions turns one buffer into the other.
-/

import XR872.Efpg.Boot

namespace XR872.Efpg

open BitView

/-- Positions below `count` at which the buffers differ. -/
def mismatches (data buf : List Byte) (count : Nat) : List Nat :=
  (List.range count).filter fun j => bitAt data j != bitAt buf j

def HashErrors.ofList : List Nat → Option HashErrors
  | [] => some { errCnt := 0, err1stNo := 0, err2ndNo := 0 }
  | [first] =>
      some { errCnt := 1, err1stNo := BitVec.ofNat 8 first, err2ndNo := 0 }
  | [first, second] =>
      some { errCnt := 2, err1stNo := BitVec.ofNat 8 first
             err2ndNo := BitVec.ofNat 8 second }
  | _ => none

/-! ### The comparison -/

theorem getLsbD_oneBit (bit j : Nat) (inByte : j < 8) :
    (1#8 <<< bit).getLsbD j = decide (j = bit) := by
  rw [BitVec.getLsbD_shiftLeft, BitVec.getLsbD_one]
  by_cases same : j = bit
  · subst same
    simp [inByte]
  · rcases Nat.lt_or_gt_of_ne same with below | above
    · simp [below, same]
    · have apart : ¬ j - bit = 0 := by omega
      simp [same, apart]

theorem and_bit_eq_iff (left right : Byte) (bit : Nat) (within : bit < 8) :
    left &&& (1#8 <<< bit) = right &&& (1#8 <<< bit) ↔
      left.getLsbD bit = right.getLsbD bit := by
  constructor
  · intro same
    have shown := congrArg (fun byte => byte.getLsbD bit) same
    simpa [getLsbD_oneBit _ _ within, BitVec.getLsbD_and] using shown
  · intro same
    apply BitVec.eq_of_getLsbD_eq
    intro j inByte
    rw [BitVec.getLsbD_and, BitVec.getLsbD_and, getLsbD_oneBit _ _ inByte]
    by_cases here : j = bit
    · rw [here, same]
    · simp [here]

theorem bitNo_eq (byteCnt bitCnt : Nat) :
    (BitVec.ofNat 8 byteCnt <<< 3) + BitVec.ofNat 8 bitCnt =
      BitVec.ofNat 8 (8 * byteCnt + bitCnt) := by
  apply BitVec.eq_of_toNat_eq
  simp only [BitVec.toNat_add, BitVec.toNat_shiftLeft, BitVec.toNat_ofNat,
    Nat.shiftLeft_eq]
  omega

/-- One turn of the bit loop records its position if the bits differ. -/
theorem efpgBootHashCmpBit_ofList (data buf : List Byte)
    (byteCnt bitCnt : Nat) (within : bitCnt < 8) (known : List Nat) :
    (HashErrors.ofList known).bind (fun errs =>
        efpgBootHashCmpBit (data.getD byteCnt 0) (buf.getD byteCnt 0) byteCnt
          errs bitCnt) =
      HashErrors.ofList
        (if bitAt data (8 * byteCnt + bitCnt) =
            bitAt buf (8 * byteCnt + bitCnt) then known
          else known ++ [8 * byteCnt + bitCnt]) := by
  have bit : ∀ bytes : List Byte,
      bitAt bytes (8 * byteCnt + bitCnt) =
        (bytes.getD byteCnt 0).getLsbD bitCnt := by
    intro bytes
    unfold bitAt
    rw [Nat.mul_add_div (by decide), Nat.div_eq_of_lt within, Nat.mul_add_mod,
      Nat.mod_eq_of_lt within, Nat.add_zero]
    rfl
  rw [bit data, bit buf]
  unfold efpgBootHashCmpBit
  simp only [and_bit_eq_iff _ _ _ within, bitNo_eq]
  by_cases same :
      (data.getD byteCnt 0).getLsbD bitCnt = (buf.getD byteCnt 0).getLsbD bitCnt
  · simp only [if_pos same]
    exact Option.bind_fun_some _
  · simp only [if_neg same]
    match known with
    | [] => rfl
    | [_] => rfl
    | [_, _] => rfl
    | _ :: _ :: _ :: _ => rfl

theorem mismatches_succ (data buf : List Byte) (count : Nat) :
    mismatches data buf (count + 1) =
      if bitAt data count = bitAt buf count then mismatches data buf count
      else mismatches data buf count ++ [count] := by
  unfold mismatches
  rw [List.range_succ, List.filter_append]
  by_cases same : bitAt data count = bitAt buf count
  · simp [same]
  · simp [same]

/-- The bit loop of byte `byteCnt`, stopped after `bits` turns. -/
theorem efpgBootHashCmpBits_eq (data buf : List Byte) (byteCnt bits : Nat)
    (within : bits ≤ 8) :
    (HashErrors.ofList (mismatches data buf (8 * byteCnt))).bind (fun errs =>
        (List.range bits).foldlM
          (efpgBootHashCmpBit (data.getD byteCnt 0) (buf.getD byteCnt 0)
            byteCnt) errs) =
      HashErrors.ofList (mismatches data buf (8 * byteCnt + bits)) := by
  induction bits with
  | zero =>
      simp only [List.range_zero, List.foldlM_nil, Nat.add_zero]
      exact Option.bind_fun_some _
  | succ bits ih =>
      have earlier := ih (by omega)
      simp only [List.range_succ, List.foldlM_append, List.foldlM_cons,
        List.foldlM_nil, bind_pure]
      rw [← Nat.add_assoc, mismatches_succ,
        ← efpgBootHashCmpBit_ofList data buf byteCnt bits (by omega), ← earlier,
        Option.bind_assoc]
      rfl

theorem efpgBootHashCmpByte_eq (data buf : List Byte) (errs : HashErrors)
    (byteCnt : Nat) :
    efpgBootHashCmpByte data buf errs byteCnt =
      (List.range 8).foldlM
        (efpgBootHashCmpBit (data.getD byteCnt 0) (buf.getD byteCnt 0)
          byteCnt) errs := by
  unfold efpgBootHashCmpByte
  split
  · rename_i same
    rw [same]
    have stays : ∀ count,
        (List.range count).foldlM
            (efpgBootHashCmpBit (buf.getD byteCnt 0) (buf.getD byteCnt 0)
              byteCnt) errs = some errs := by
      intro count
      induction count with
      | zero => rfl
      | succ count ih =>
          rw [List.range_succ, List.foldlM_append, ih]
          simp [efpgBootHashCmpBit]
    exact (stays 8).symm
  · rfl

theorem efpgBootHashCmp_eq (data buf : List Byte) :
    efpgBootHashCmp data buf =
      HashErrors.ofList (mismatches data buf (8 * efpgBootBufLen)) := by
  have loop : ∀ count,
      (List.range count).foldlM (efpgBootHashCmpByte data buf)
          { errCnt := 0, err1stNo := 0, err2ndNo := 0 } =
        HashErrors.ofList (mismatches data buf (8 * count)) := by
    intro count
    induction count with
    | zero => rfl
    | succ count ih =>
        rw [List.range_succ, List.foldlM_append, ih, Nat.mul_add, Nat.mul_one,
          ← efpgBootHashCmpBits_eq data buf count 8 (Nat.le_refl 8)]
        congr 1
        funext errs
        simp [efpgBootHashCmpByte_eq]
  unfold efpgBootHashCmp
  dsimp only
  split
  · rename_i same
    have none : mismatches data buf (8 * efpgBootBufLen) = [] := by
      unfold mismatches
      rw [same]
      simp
    rw [none]
    rfl
  · exact loop efpgBootBufLen

/-! ### The correction -/

theorem bitAt_flipBit (data : List Byte) (no : Byte) (j : Nat)
    (within : j < 8 * data.length) :
    bitAt (flipBit data no) j = (bitAt data j ^^ decide (j = no.toNat)) := by
  have high : (no >>> 3).toNat = no.toNat / 8 := by
    rw [BitVec.toNat_ushiftRight, Nat.shiftRight_eq_div_pow]
  have low : (no &&& 0x07).toNat = no.toNat % 8 := by
    have mask : (0x07 : Byte).toNat = 2 ^ 3 - 1 := by decide
    rw [BitVec.toNat_and, mask, Nat.and_two_pow_sub_one_eq_mod]
  have index : j / 8 < data.length := by omega
  have bitBound : j % 8 < 8 := Nat.mod_lt _ (by decide)
  unfold bitAt flipBit
  rw [high, low]
  simp only [List.getD_eq_getElem?_getD, List.getElem?_modify,
    List.getElem?_eq_getElem index]
  by_cases byte : no.toNat / 8 = j / 8
  · have position : j % 8 = no.toNat % 8 ↔ j = no.toNat := by omega
    simp only [if_pos byte, Option.map_eq_map, Option.map_some,
      Option.getD_some, BitVec.getLsbD_xor, getLsbD_oneBit _ _ bitBound, position]
  · have different : j ≠ no.toNat := by
      intro same
      rw [same] at byte
      exact byte rfl
    simp [byte, different]

theorem flipBit_length (data : List Byte) (no : Byte) :
    (flipBit data no).length = data.length := by
  unfold flipBit
  exact List.length_modify ..

def flipBits (data : List Byte) (positions : List Byte) : List Byte :=
  positions.foldl flipBit data

theorem flipBits_length (data positions : List Byte) :
    (flipBits data positions).length = data.length := by
  induction positions generalizing data with
  | nil => rfl
  | cons no rest ih =>
      change (flipBits (flipBit data no) rest).length = data.length
      rw [ih, flipBit_length]

theorem bitAt_flipBits (data positions : List Byte) (j : Nat)
    (distinct : (positions.map BitVec.toNat).Nodup)
    (within : j < 8 * data.length) :
    bitAt (flipBits data positions) j =
      (bitAt data j ^^ decide (j ∈ positions.map BitVec.toNat)) := by
  induction positions generalizing data with
  | nil => simp [flipBits]
  | cons no rest ih =>
      rw [List.map_cons, List.nodup_cons] at distinct
      change bitAt (flipBits (flipBit data no) rest) j = _
      rw [ih (flipBit data no) distinct.2 (by rw [flipBit_length]; exact within),
        bitAt_flipBit data no j within, List.map_cons]
      by_cases here : j = no.toNat
      · subst here
        simp [distinct.1]
      · simp [here]

theorem flipBits_mismatches (data buf positions : List Byte)
    (sameLength : buf.length = data.length)
    (all : positions.map BitVec.toNat =
      mismatches data buf (8 * data.length)) :
    flipBits buf positions = data := by
  have distinct : (positions.map BitVec.toNat).Nodup := by
    rw [all]
    exact List.Nodup.filter _ List.nodup_range
  apply ext_of_bitAt _ _ (by rw [flipBits_length, sameLength])
  intro j within
  rw [flipBits_length, sameLength] at within
  rw [bitAt_flipBits buf positions j distinct (by omega), all]
  have member : j ∈ mismatches data buf (8 * data.length) ↔
      bitAt data j ≠ bitAt buf j := by
    simp [mismatches, within]
  simp only [member]
  cases bitAt data j <;> cases bitAt buf j <;> rfl

end XR872.Efpg
