/-
Decoded strings of the voice print, policy 2.

A string carries an index digit, what belongs to the index and two checksum
digits. What belongs to each index is kept until as many indexes are there as
fragment 0 told.
-/

import XR872.Library.BitView
import XR872.Library.Buffer

namespace XR872.VoicePrint

open BitView
open Buffers

def vpDecResultMaxLen : Nat := 13

def vpDecResultMinLen : Nat := 4

def vpDecResultMaxNum : Nat := 0x10

inductive VoiceprintStatus where
  | normal
  | notReady
  | decError
  | complete
deriving DecidableEq, Repr

/-- `vp_priv_t` without the decoder, the sound card and the task. The arrays are
functions of the index. -/
structure VpPriv where
  status : VoiceprintStatus
  resultTotal : Nat
  resultCnt : Nat
  resultLen : Nat → Nat
  result : Nat → Buffer Byte vpDecResultMaxLen

/-- The `vp_priv_t` of `voiceprint_start`, set to zero. -/
def vpPrivZero : VpPriv :=
  { status := .normal, resultTotal := 0, resultCnt := 0,
    resultLen := fun _ => 0, result := fun _ => Buffer.fill _ 0#8 }

/-- The value of a hex digit; -1 is `none`. -/
def hex2num (c : Byte) : Option Nat :=
  if 0x30 ≤ c.toNat ∧ c.toNat ≤ 0x39 then some (c.toNat - 0x30)
  else if 0x61 ≤ c.toNat ∧ c.toNat ≤ 0x66 then some (c.toNat - 0x61 + 10)
  else if 0x41 ≤ c.toNat ∧ c.toNat ≤ 0x46 then some (c.toNat - 0x41 + 10)
  else none

/-- A character of the string, which ends in a NUL. -/
def charAt (data : List Byte) (index : Nat) : Byte := data.getD index 0#8

def charSum (data : List Byte) : Nat := (data.map BitVec.toNat).sum

/-- The part of `vp_process_result` up to the checksum, with the bounds of a
policy: what is left of the length, or `none` where -1 is returned. -/
def vpChecked (minLen maxLen : Nat) (data : List Byte) : Option Nat :=
  let len := data.length
  if len < minLen ∨ maxLen < len then none
  else
    match hex2num (charAt data (len - 1)) with
    | none => none
    | some low =>
        match hex2num (charAt data (len - 2)) with
        | none => none
        | some high =>
            let chksum := (low + high <<< 4) % 256
            if (charSum (data.take (len - 2)) + chksum) % 256 = 0xff then
              some (len - 2)
            else none

def vpCheck (data : List Byte) : Option Nat :=
  vpChecked vpDecResultMinLen vpDecResultMaxLen data

/-- `memcpy` into a result, and its length; `none` for a copy that does not
fit. -/
def vpStore (priv : VpPriv) (idx : Nat) (payload : List Byte) : Option VpPriv :=
  if fits : 0 + payload.length ≤ vpDecResultMaxLen then
    some { priv with
      result := Function.update priv.result idx
        ((priv.result idx).store 0 payload fits)
      resultLen := Function.update priv.resultLen idx payload.length }
  else none

/-- The loop of fragment 0 over the results below the total. -/
def vpRecount (priv : VpPriv) : Nat :=
  (List.range priv.resultTotal).foldl
    (fun cnt index =>
      if priv.resultLen index ≠ 0 then (cnt + 1) % 256 else cnt)
    priv.resultCnt

def vpAnswer (priv : VpPriv) : VpPriv × Int :=
  (priv, if 0 < priv.resultTotal ∧ priv.resultCnt = priv.resultTotal then 0
    else -1)

/-- What is returned, with the `vp_priv_t` that is left; `none` where a
`memcpy` leaves its buffers. -/
def vpProcessResult (priv : VpPriv) (data : List Byte) : Option (VpPriv × Int) :=
  match vpCheck data with
  | none => some (priv, -1)
  | some len =>
      match hex2num (charAt data 0) with
      | none => some (priv, -1)
      | some idx =>
          if vpDecResultMaxNum ≤ idx then some (priv, -1)
          else if priv.resultLen idx ≠ 0 then some (priv, -1)
          else if idx = 0 then
            match hex2num (charAt data 2) with
            | none => some (priv, -1)
            | some tmp =>
                if vpDecResultMaxNum ≤ tmp then some (priv, -1)
                -- of a content of two characters -1 is left for the payload
                else if len < 3 then none
                else
                  match vpStore { priv with resultTotal := tmp + 1 } idx
                      ((data.take len).drop 3) with
                  | none => none
                  | some priv =>
                      some (vpAnswer { priv with resultCnt := vpRecount priv })
          else
            match vpStore priv idx ((data.take len).drop 1) with
            | none => none
            | some priv =>
                some (vpAnswer
                  (if 0 < priv.resultTotal then
                    { priv with resultCnt := (priv.resultCnt + 1) % 256 }
                  else priv))

/-- `voiceprint_ret_t` of `wlan_voiceprint_get_raw_result`, with what is stored
through its pointers. -/
inductive RawResult where
  | success (result : List Byte)
  | fail
  | overflow
deriving DecidableEq

def wlanVoiceprintGetRawResult (priv : VpPriv) (len : Int) : RawResult :=
  if priv.status ≠ .complete then .fail
  else
    let indexes := List.range priv.resultTotal
    let totalLen := (indexes.map priv.resultLen).sum
    if totalLen = 0 then .fail
    else if len < totalLen then .overflow
    else
      .success (indexes.flatMap fun index =>
        (priv.result index).cells.take (priv.resultLen index))

/-! ### Runs -/

/-- The voice print between two decoded strings. -/
structure VpRun where
  /-- `none` after a copy outside of its buffers. -/
  priv : Option VpPriv
  /-- The strings decoded so far. -/
  strings : List (List Byte)
  /-- What `vp_process_result` has returned for the last one. -/
  ret : Option Int

def vpRunStart : VpRun :=
  { priv := some vpPrivZero, strings := [], ret := none }

/-- `voiceprint_wait_once` around one string: the status it leaves follows the
returned value. -/
def vpTurn (run : VpRun) (data : List Byte) : VpRun :=
  match run.priv with
  | none => { run with strings := run.strings ++ [data] }
  | some priv =>
      match vpProcessResult priv data with
      | none => { priv := none, strings := run.strings ++ [data], ret := none }
      | some (priv, ret) =>
          { priv := some { priv with
              status := if ret = 0 then .complete else .normal }
            strings := run.strings ++ [data]
            ret := some ret }

/-! ### What the parts compute -/

theorem hex2num_lt (c : Byte) (value : Nat) (digit : hex2num c = some value) :
    value < vpDecResultMaxNum := by
  unfold hex2num at digit
  unfold vpDecResultMaxNum
  split at digit
  · cases digit
    omega
  · split at digit
    · cases digit
      omega
    · split at digit
      · cases digit
        omega
      · cases digit

theorem vpStore_payload (priv : VpPriv) (idx : Nat) (payload : List Byte)
    (fits : 0 + payload.length ≤ vpDecResultMaxLen) :
    vpStore priv idx payload = some { priv with
      result := Function.update priv.result idx
        ((priv.result idx).store 0 payload fits)
      resultLen := Function.update priv.resultLen idx payload.length } := by
  unfold vpStore
  rw [dif_pos fits]

theorem vpStore_inv (priv stored : VpPriv) (idx : Nat) (payload : List Byte)
    (store : vpStore priv idx payload = some stored) :
    ∃ fits : 0 + payload.length ≤ vpDecResultMaxLen, stored = { priv with
      result := Function.update priv.result idx
        ((priv.result idx).store 0 payload fits)
      resultLen := Function.update priv.resultLen idx payload.length } := by
  unfold vpStore at store
  split at store
  · exact ⟨_, (Option.some.inj store).symm⟩
  · cases store

end XR872.VoicePrint
