/-
What a decoded string says, and what the strings of a run make up.

A fragment is read off the string as a whole: the content, sealed by its
checksum digits. Of each index the first fragment counts, and fragment 0 tells
how many there are.
-/

import XR872.Library.Collect
import XR872.Library.Run
import XR872.VoicePrint.Process

namespace XR872.VoicePrint

open BitView
open Buffers
open Collects
open Runs

/-! ### Fragments -/

structure Fragment where
  index : Nat
  /-- How many fragments there are, in fragment 0. -/
  total : Option Nat
  payload : List Byte
deriving DecidableEq

def sealed (content : List Byte) (high low : Byte) : Bool :=
  match hex2num high, hex2num low with
  | some highNum, some lowNum =>
      decide (2 ≤ content.length ∧ content.length ≤ 11 ∧
        (charSum content + (16 * highNum + lowNum)) % 256 = 255)
  | _, _ => false

/-- The fragment with this content: the index digit and the payload, and in
fragment 0 a version and the digit of the largest index between them. -/
def fragmentIn : List Byte → Option Fragment
  | [] => none
  | first :: body =>
      match hex2num first with
      | none => none
      | some 0 =>
          match body with
          | _version :: last :: payload =>
              (hex2num last).map fun most =>
                { index := 0, total := some (most + 1), payload }
          | _ => none
      | some (index + 1) =>
          some { index := index + 1, total := none, payload := body }

def fragmentOf (data : List Byte) : Option Fragment :=
  match data.drop (data.length - 2) with
  | [high, low] =>
      let content := data.take (data.length - 2)
      if sealed content high low then fragmentIn content else none
  | _ => none

/-! ### Strings that are taken apart -/

theorem charAt_append (content : List Byte) (rest : List Byte) (index : Nat) :
    charAt (content ++ rest) (content.length + index) = charAt rest index := by
  unfold charAt
  rw [List.getD_append_right _ _ _ _ (Nat.le_add_right _ _),
    Nat.add_sub_cancel_left]

theorem split_string (data : List Byte) (long : 2 ≤ data.length) :
    ∃ content high low, data = content ++ [high, low] := by
  have size : (data.drop (data.length - 2)).length = 2 := by
    rw [List.length_drop]
    omega
  obtain ⟨high, low, ends⟩ := List.length_eq_two.mp size
  refine ⟨data.take (data.length - 2), high, low, ?_⟩
  rw [← ends, List.take_append_drop]

theorem fragmentOf_split (content : List Byte) (high low : Byte) :
    fragmentOf (content ++ [high, low]) =
      if sealed content high low then fragmentIn content else none := by
  have size : (content ++ [high, low]).length - 2 = content.length := by
    rw [List.length_append]
    rfl
  unfold fragmentOf
  rw [size, List.drop_left, List.take_left]

theorem fragmentOf_short (data : List Byte) (short : data.length < 2) :
    fragmentOf data = none := by
  match data with
  | [] => rfl
  | [_] => rfl
  | _ :: _ :: rest =>
      exact absurd short (Nat.not_lt.mpr (Nat.le_add_left 2 rest.length))

theorem vpCheck_split (content : List Byte) (high low : Byte) :
    vpCheck (content ++ [high, low]) =
      if sealed content high low then some content.length else none := by
  have size : (content ++ [high, low]).length = content.length + 2 :=
    List.length_append
  have atLow : charAt (content ++ [high, low]) (content.length + 1) = low :=
    charAt_append content [high, low] 1
  have atHigh : charAt (content ++ [high, low]) content.length = high :=
    charAt_append content [high, low] 0
  have front : (content ++ [high, low]).take content.length = content :=
    List.take_left
  unfold vpCheck vpChecked sealed
  simp only [size, vpDecResultMinLen, vpDecResultMaxLen, Nat.add_sub_cancel,
    show content.length + 2 - 1 = content.length + 1 from rfl, atLow, atHigh,
    front]
  cases hex2num low with
  | none => cases hex2num high <;> simp
  | some lowNum =>
      cases hex2num high with
      | none => simp
      | some highNum =>
          have shifted : highNum <<< 4 = 16 * highNum := by
            rw [Nat.shiftLeft_eq]
            omega
          simp only [shifted, decide_eq_true_eq]
          by_cases sized : content.length + 2 < 4 ∨ 13 < content.length + 2
          · rw [if_pos sized, if_neg (by omega)]
          · rw [if_neg sized]
            by_cases sums : (charSum content + (16 * highNum + lowNum)) % 256 =
                255
            · rw [if_pos (by omega), if_pos (by omega)]
            · rw [if_neg (by omega), if_neg (by omega)]

theorem sealed_length (content : List Byte) (high low : Byte)
    (whole : sealed content high low = true) :
    2 ≤ content.length ∧ content.length ≤ 11 := by
  unfold sealed at whole
  split at whole
  · obtain ⟨least, most, _⟩ := of_decide_eq_true whole
    exact ⟨least, most⟩
  · cases whole

theorem sealed_high (content : List Byte) (high low : Byte)
    (whole : sealed content high low = true) :
    ∃ value, hex2num high = some value := by
  cases digit : hex2num high with
  | none =>
      unfold sealed at whole
      simp only [digit] at whole
      cases whole
  | some value => exact ⟨value, rfl⟩

theorem fragmentIn_index (content : List Byte) (fragment : Fragment)
    (read : fragmentIn content = some fragment) :
    fragment.index < vpDecResultMaxNum ∧
      (fragment.index = 0 → ∃ most, most < vpDecResultMaxNum ∧
        fragment.total = some (most + 1)) ∧
      fragment.payload.length < content.length := by
  match content with
  | [] => cases read
  | first :: body =>
      simp only [fragmentIn] at read
      cases digit : hex2num first with
      | none =>
          rw [digit] at read
          cases read
      | some value =>
          have small := hex2num_lt first value digit
          rw [digit] at read
          cases value with
          | zero =>
              match body with
              | [] => cases read
              | [_] => cases read
              | version :: last :: payload =>
                  obtain ⟨most, lastDigit, same⟩ := Option.map_eq_some_iff.mp read
                  rw [← same]
                  refine ⟨small, ?_, ?_⟩
                  · intro _
                    exact ⟨most, hex2num_lt last most lastDigit, rfl⟩
                  · simp only [List.length_cons]
                    omega
          | succ index =>
              cases read
              refine ⟨small, ?_, Nat.lt_succ_self _⟩
              intro zero
              cases zero

theorem fragmentIn_nonempty (content : List Byte) (fragment : Fragment)
    (read : fragmentIn content = some fragment) (other : fragment.index ≠ 0)
    (least : 2 ≤ content.length) : fragment.payload ≠ [] := by
  match content, least with
  | first :: second :: rest, _ =>
      simp only [fragmentIn] at read
      cases digit : hex2num first with
      | none =>
          rw [digit] at read
          cases read
      | some value =>
          rw [digit] at read
          cases value with
          | zero =>
              match rest with
              | [] => cases read
              | last :: payload =>
                  obtain ⟨most, _, same⟩ := Option.map_eq_some_iff.mp read
                  rw [← same] at other
                  exact absurd rfl other
          | succ index =>
              cases read
              exact List.cons_ne_nil second rest

/-! ### What one call does -/

theorem vpStore_part (priv : VpPriv) (idx : Nat) (payload content : List Byte)
    (part : payload.length < content.length) (most : content.length ≤ 11) :
    ∃ stored, vpStore priv idx payload = some stored := by
  have fits : 0 + payload.length ≤ vpDecResultMaxLen := by
    unfold vpDecResultMaxLen
    omega
  exact ⟨_, vpStore_payload priv idx payload fits⟩

inductive Processed (priv : VpPriv) (data : List Byte) : Prop where
  | ignored
      (same : vpProcessResult priv data = some (priv, -1))
      (known : ∀ fragment, fragmentOf data = some fragment →
        priv.resultLen fragment.index ≠ 0)
  /-- Fragment 0 without its total: the length of the copy is -1. -/
  | torn
      (outside : vpProcessResult priv data = none)
      (short : data.length = 4)
      (check : vpCheck data = some 2)
      (digit : hex2num (charAt data 0) = some 0)
      (new : priv.resultLen 0 = 0)
  | zero (fragment : Fragment) (most : Nat) (stored : VpPriv)
      (read : fragmentOf data = some fragment)
      (index : fragment.index = 0)
      (total : fragment.total = some (most + 1))
      (new : priv.resultLen 0 = 0)
      (store : vpStore { priv with resultTotal := most + 1 } 0
        fragment.payload = some stored)
      (kept : vpProcessResult priv data =
        some (vpAnswer { stored with resultCnt := vpRecount stored }))
  | other (fragment : Fragment) (stored : VpPriv)
      (read : fragmentOf data = some fragment)
      (index : fragment.index ≠ 0)
      (new : priv.resultLen fragment.index = 0)
      (store : vpStore priv fragment.index fragment.payload = some stored)
      (kept : vpProcessResult priv data =
        some (vpAnswer (if 0 < stored.resultTotal then
          { stored with resultCnt := (stored.resultCnt + 1) % 256 }
        else stored)))

theorem fragmentIn_digit (first : Byte) (body : List Byte) (fragment : Fragment)
    (read : fragmentIn (first :: body) = some fragment) :
    hex2num first = some fragment.index := by
  simp only [fragmentIn] at read
  cases digit : hex2num first with
  | none =>
      rw [digit] at read
      cases read
  | some value =>
      rw [digit] at read
      cases value with
      | zero =>
          match body with
          | [] => cases read
          | [_] => cases read
          | _ :: last :: payload =>
              obtain ⟨most, _, same⟩ := Option.map_eq_some_iff.mp read
              rw [← same]
      | succ index =>
          cases read
          rfl

section Sealed

variable (priv : VpPriv) (content : List Byte) (high low : Byte)

theorem processed_other (first : Byte) (body : List Byte) (index : Nat)
    (whole : sealed (first :: body) high low = true)
    (digit : hex2num first = some (index + 1))
    (new : priv.resultLen (index + 1) = 0) :
    Processed priv (first :: body ++ [high, low]) := by
  have check := vpCheck_split (first :: body) high low
  have read := fragmentOf_split (first :: body) high low
  rw [if_pos whole] at check read
  have front : (first :: body ++ [high, low]).take (first :: body).length =
      first :: body := List.take_left
  have atFirst : charAt (first :: body ++ [high, low]) 0 = first := rfl
  have small := Nat.not_le.mpr (hex2num_lt first _ digit)
  obtain ⟨stored, store⟩ := vpStore_part priv (index + 1) body (first :: body)
    (Nat.lt_succ_self _) (sealed_length _ high low whole).2
  refine Processed.other { index := index + 1, total := none, payload := body }
    stored ?_ (Nat.succ_ne_zero index) new store ?_
  · rw [read]
    simp only [fragmentIn, digit]
  · simp only [vpProcessResult, check, atFirst, digit, if_neg small,
      if_neg (not_not_intro new), if_neg (Nat.succ_ne_zero index), front,
      List.drop_succ_cons, List.drop_zero, store]

theorem processed_zero (first second : Byte) (rest : List Byte)
    (whole : sealed (first :: second :: rest) high low = true)
    (digit : hex2num first = some 0) (new : priv.resultLen 0 = 0) :
    Processed priv (first :: second :: rest ++ [high, low]) := by
  have check := vpCheck_split (first :: second :: rest) high low
  have read := fragmentOf_split (first :: second :: rest) high low
  rw [if_pos whole] at check read
  have front : (first :: second :: rest ++ [high, low]).take
      (first :: second :: rest).length = first :: second :: rest :=
    List.take_left
  have atFirst : charAt (first :: second :: rest ++ [high, low]) 0 = first := rfl
  have atThird : charAt (first :: second :: rest ++ [high, low]) 2 =
      charAt (rest ++ [high, low]) 0 := rfl
  have positive := Nat.not_le.mpr (hex2num_lt first 0 digit)
  match rest with
  | [] =>
      -- the third character is the first one of the checksum
      obtain ⟨most, digits⟩ := sealed_high _ high low whole
      have third : charAt ([] ++ [high, low]) 0 = high := rfl
      have small := Nat.not_le.mpr (hex2num_lt high most digits)
      have short : [first, second].length < 3 := Nat.lt_succ_self 2
      refine Processed.torn ?_ rfl check (by rw [atFirst, digit]) new
      simp only [vpProcessResult, check, atFirst, digit, if_neg positive,
        if_neg (not_not_intro new), if_true, atThird, third, digits,
        if_neg small, if_pos short]
  | last :: payload =>
      have atLast : charAt (last :: payload ++ [high, low]) 0 = last := rfl
      rw [atLast] at atThird
      cases total : hex2num last with
      | none =>
          refine Processed.ignored ?_ ?_
          · simp only [vpProcessResult, check, atFirst, digit, if_neg positive,
              if_neg (not_not_intro new), if_true, atThird, total]
          · intro fragment found
            rw [read] at found
            simp only [fragmentIn, digit, total] at found
            cases found
      | some most =>
          have small := Nat.not_le.mpr (hex2num_lt last most total)
          have long : ¬ (first :: second :: last :: payload).length < 3 := by
            simp only [List.length_cons]
            omega
          obtain ⟨stored, store⟩ := vpStore_part
            { priv with resultTotal := most + 1 } 0 payload
            (first :: second :: last :: payload)
            (by simp only [List.length_cons]; omega)
            (sealed_length _ high low whole).2
          refine Processed.zero { index := 0, total := some (most + 1), payload }
            most stored ?_ rfl rfl new store ?_
          · rw [read]
            simp only [fragmentIn, digit, total, Option.map_some]
          · simp only [vpProcessResult, check, atFirst, digit, if_neg positive,
              if_neg (not_not_intro new), if_true, atThird, total,
              if_neg small, if_neg long, front, List.drop_succ_cons,
              List.drop_zero, store]

end Sealed

theorem processed (priv : VpPriv) (data : List Byte) : Processed priv data := by
  by_cases long : 2 ≤ data.length
  · obtain ⟨content, high, low, split⟩ := split_string data long
    subst split
    have check := vpCheck_split content high low
    have read := fragmentOf_split content high low
    cases whole : sealed content high low with
    | false =>
        rw [whole] at check read
        apply Processed.ignored
        · simp only [vpProcessResult, check]
          rfl
        · intro fragment found
          rw [read] at found
          cases found
    | true =>
        rw [whole, if_pos rfl] at check read
        obtain ⟨least, most⟩ := sealed_length content high low whole
        match content, least with
        | first :: second :: rest, _ =>
            have atFirst :
                charAt (first :: second :: rest ++ [high, low]) 0 = first := rfl
            cases digit : hex2num first with
            | none =>
                apply Processed.ignored
                · simp only [vpProcessResult, check, atFirst, digit]
                · intro fragment found
                  rw [read] at found
                  rw [fragmentIn_digit first _ fragment found] at digit
                  cases digit
            | some idx =>
                have small := Nat.not_le.mpr (hex2num_lt first idx digit)
                by_cases new : priv.resultLen idx = 0
                · cases idx with
                  | zero =>
                      exact processed_zero priv high low first second rest whole
                        digit new
                  | succ index =>
                      exact processed_other priv high low first (second :: rest)
                        index whole digit new
                · apply Processed.ignored
                  · simp only [vpProcessResult, check, atFirst, digit,
                      if_neg small, if_pos new]
                  · intro fragment found
                    rw [read] at found
                    have same := fragmentIn_digit first _ fragment found
                    rw [digit] at same
                    rw [← Option.some.inj same]
                    exact new
  · have short : data.length < 2 := Nat.lt_of_not_le long
    have unchecked : vpCheck data = none := by
      unfold vpCheck vpChecked vpDecResultMinLen
      exact if_pos (Or.inl (by omega))
    apply Processed.ignored
    · simp only [vpProcessResult, unchecked]
    · intro fragment found
      rw [fragmentOf_short data short] at found
      cases found

end XR872.VoicePrint
