/-
The copies of `vp_process_result`, in both policies.

Every run of the function is listed with the characters it reads by an index of
its own and with the one `memcpy` it may come to. The length is tested once and
then counted down for each part that is taken off; on the path of index 0 it is
counted down to -1 by a string that is as short as the test lets through.
-/

import XR872.VoicePrint.Process

namespace XR872.VoicePrint

open BitView
open Buffers

/-- `priv->data` as far as `data_len`, a `uint8_t`, counts it. -/
def vpReceived (data : List Byte) : List Byte := data.take (data.length % 256)

/-! ### Policy 1 -/

/-- `VP_DEC_RESULT_MAX_LEN` of policy 1. -/
def vpDecResultMaxLen1 : Nat := 101

def vpDecResultMinLen1 : Nat := 6

def vpDecResultMaxNum1 : Nat := 0x1

/-- What policy 1 keeps of the results. -/
structure VpPriv1 where
  resultTotal : Nat
  resultCnt : Nat
  resultLen : Nat → Nat
  result : Nat → Buffer Byte vpDecResultMaxLen1

def vpProcessResult1 (priv : VpPriv1) (data : List Byte) :
    Option (VpPriv1 × Int) :=
  match vpChecked vpDecResultMinLen1 vpDecResultMaxLen1 data with
  | none => some (priv, -1)
  | some len =>
      if fits : 0 + (data.take (len + 2)).length ≤ vpDecResultMaxLen1 then
        some ({ priv with
          resultLen := Function.update priv.resultLen 0 (len + 2)
          result := Function.update priv.result 0
            ((priv.result 0).store 0 (data.take (len + 2)) fits)
          resultTotal := 1 }, 0)
      else none

/-! ### Accesses -/

/-- One `memcpy`, from a character of the string to a result. -/
structure VpCopy where
  idx : Nat
  start : Nat
  len : Int
deriving DecidableEq, Repr

structure VpAccess where
  /-- The indexes of the characters, in the order they are read. -/
  reads : List Nat
  copy : Option VpCopy
deriving DecidableEq, Repr

def vpCheckReads (minLen maxLen : Nat) (data : List Byte) : List Nat :=
  let len := data.length
  if len < minLen ∨ maxLen < len then []
  else
    (len - 1) ::
      match hex2num (charAt data (len - 1)) with
      | none => []
      | some _ =>
          (len - 2) ::
            match hex2num (charAt data (len - 2)) with
            | none => []
            | some _ => List.range (len - 2)

def vpAccess1 (data : List Byte) : VpAccess :=
  let reads := vpCheckReads vpDecResultMinLen1 vpDecResultMaxLen1 data
  match vpChecked vpDecResultMinLen1 vpDecResultMaxLen1 data with
  | none => { reads, copy := none }
  | some len => { reads, copy := some { idx := 0, start := 0, len := len + 2 } }

def vpAccess (priv : VpPriv) (data : List Byte) : VpAccess :=
  let reads := vpCheckReads vpDecResultMinLen vpDecResultMaxLen data
  match vpCheck data with
  | none => { reads, copy := none }
  | some len =>
      match hex2num (charAt data 0) with
      | none => { reads := reads ++ [0], copy := none }
      | some idx =>
          if vpDecResultMaxNum ≤ idx then
            { reads := reads ++ [0], copy := none }
          else if priv.resultLen idx ≠ 0 then
            { reads := reads ++ [0], copy := none }
          else if idx = 0 then
            match hex2num (charAt data 2) with
            | none => { reads := reads ++ [0, 2], copy := none }
            | some tmp =>
                if vpDecResultMaxNum ≤ tmp then
                  { reads := reads ++ [0, 2], copy := none }
                else
                  { reads := reads ++ [0, 2]
                    copy := some { idx, start := 3, len := (len : Int) - 3 } }
          else
            { reads := reads ++ [0]
              copy := some { idx, start := 1, len := (len : Int) - 1 } }

/-- Everything is read inside the string and copied inside a result. -/
structure Bounded (maxLen maxNum : Nat) (data : List Byte)
    (access : VpAccess) : Prop where
  reads : ∀ index ∈ access.reads, index < data.length
  copy : ∀ copy ∈ access.copy,
    copy.idx < maxNum ∧ 0 ≤ copy.len ∧ copy.len ≤ maxLen ∧
      copy.start + copy.len ≤ data.length

/-- The promise of policy 1: a string without a copy was rejected, and changes
nothing. -/
structure KeepsBounds1 (priv : VpPriv1) (data : List Byte) : Prop where
  bounded : Bounded vpDecResultMaxLen1 vpDecResultMaxNum1 data (vpAccess1 data)
  rejected : (vpAccess1 data).copy = none →
    vpProcessResult1 priv data = some (priv, -1)

structure KeepsBounds (priv : VpPriv) (data : List Byte) : Prop where
  bounded : Bounded vpDecResultMaxLen vpDecResultMaxNum data
    (vpAccess priv data)
  rejected : (vpAccess priv data).copy = none →
    vpProcessResult priv data = some (priv, -1)

/-! ### The common part -/

theorem vpChecked_some (minLen maxLen len : Nat) (data : List Byte)
    (checked : vpChecked minLen maxLen data = some len) :
    minLen ≤ data.length ∧ data.length ≤ maxLen ∧ len = data.length - 2 ∧
      ∃ high, hex2num (charAt data (data.length - 2)) = some high := by
  unfold vpChecked at checked
  dsimp only at checked
  by_cases refused : data.length < minLen ∨ maxLen < data.length
  · rw [if_pos refused] at checked
    cases checked
  · rw [if_neg refused] at checked
    cases last : hex2num (charAt data (data.length - 1)) with
    | none =>
        rw [last] at checked
        cases checked
    | some low =>
        rw [last] at checked
        cases first : hex2num (charAt data (data.length - 2)) with
        | none =>
            rw [first] at checked
            cases checked
        | some high =>
            rw [first] at checked
            dsimp only at checked
            split at checked
            · exact ⟨by omega, by omega, (Option.some.inj checked).symm, high,
                rfl⟩
            · cases checked

theorem vpCheckReads_below (minLen maxLen : Nat) (data : List Byte)
    (two : 2 ≤ minLen) :
    ∀ index ∈ vpCheckReads minLen maxLen data, index < data.length := by
  intro index member
  unfold vpCheckReads at member
  dsimp only at member
  by_cases refused : data.length < minLen ∨ maxLen < data.length
  · rw [if_pos refused] at member
    cases member
  · rw [if_neg refused] at member
    rcases List.mem_cons.mp member with last | member
    · omega
    · cases low : hex2num (charAt data (data.length - 1)) with
      | none =>
          rw [low] at member
          cases member
      | some value =>
          rw [low] at member
          rcases List.mem_cons.mp member with first | member
          · omega
          · cases high : hex2num (charAt data (data.length - 2)) with
            | none =>
                rw [high] at member
                cases member
            | some value =>
                rw [high] at member
                have below := List.mem_range.mp member
                omega

/-! ### Policy 1 keeps its bounds -/

theorem keepsBounds1 (priv : VpPriv1) (data : List Byte) :
    KeepsBounds1 priv data := by
  have reads := vpCheckReads_below vpDecResultMinLen1 vpDecResultMaxLen1 data
    (by decide)
  cases checked : vpChecked vpDecResultMinLen1 vpDecResultMaxLen1 data with
  | none =>
      have access : vpAccess1 data =
          { reads := vpCheckReads vpDecResultMinLen1 vpDecResultMaxLen1 data
            copy := none } := by
        unfold vpAccess1
        rw [checked]
      constructor
      · rw [access]
        exact { reads := reads, copy := nofun }
      · intro _
        unfold vpProcessResult1
        rw [checked]
  | some len =>
      have access : vpAccess1 data =
          { reads := vpCheckReads vpDecResultMinLen1 vpDecResultMaxLen1 data
            copy := some { idx := 0, start := 0, len := len + 2 } } := by
        unfold vpAccess1
        rw [checked]
      obtain ⟨shortest, longest, rest, _⟩ := vpChecked_some _ _ _ _ checked
      unfold vpDecResultMinLen1 at shortest
      constructor
      · rw [access]
        constructor
        · exact reads
        · intro copy same
          cases same
          dsimp only
          unfold vpDecResultMaxLen1 at longest ⊢
          exact ⟨by decide, by omega, by omega, by omega⟩
      · intro none
        rw [access] at none
        cases none

/-! ### Policy 2 -/

/-- A string of four characters for index 0, which is still missing: index,
version and two checksum digits. -/
def ShortFirst (priv : VpPriv) (data : List Byte) : Prop :=
  vpCheck data = some 2 ∧ hex2num (charAt data 0) = some 0 ∧
    priv.resultLen 0 = 0

instance (priv : VpPriv) (data : List Byte) : Decidable (ShortFirst priv data) :=
  inferInstanceAs (Decidable (_ ∧ _ ∧ _))

/-- Everything a string can lead to: it is rejected with nothing copied, or it
is copied to the result of its index. -/
inductive Led (priv : VpPriv) (data : List Byte) : Prop where
  | rejected
      (copy : (vpAccess priv data).copy = none)
      (process : vpProcessResult priv data = some (priv, -1))
  | first (len : Nat)
      (checked : vpCheck data = some len)
      (digit : hex2num (charAt data 0) = some 0)
      (missing : priv.resultLen 0 = 0)
      (copy : (vpAccess priv data).copy =
        some { idx := 0, start := 3, len := (len : Int) - 3 })
  | other (len idx : Nat)
      (checked : vpCheck data = some len)
      (digit : hex2num (charAt data 0) = some idx)
      (positive : idx ≠ 0)
      (copy : (vpAccess priv data).copy =
        some { idx, start := 1, len := (len : Int) - 1 })

theorem led (priv : VpPriv) (data : List Byte) : Led priv data := by
  cases checked : vpCheck data with
  | none =>
      apply Led.rejected
      · unfold vpAccess
        rw [checked]
      · unfold vpProcessResult
        rw [checked]
  | some len =>
      cases digit : hex2num (charAt data 0) with
      | none =>
          apply Led.rejected
          · unfold vpAccess
            rw [checked, digit]
          · unfold vpProcessResult
            rw [checked, digit]
      | some idx =>
          have small : ¬ vpDecResultMaxNum ≤ idx :=
            Nat.not_le.mpr (hex2num_lt _ _ digit)
          by_cases known : priv.resultLen idx ≠ 0
          · apply Led.rejected
            · unfold vpAccess
              rw [checked, digit]
              dsimp only
              rw [if_neg small, if_pos known]
            · unfold vpProcessResult
              rw [checked, digit]
              dsimp only
              rw [if_neg small, if_pos known]
          · by_cases zero : idx = 0
            · cases most : hex2num (charAt data 2) with
              | none =>
                  apply Led.rejected
                  · unfold vpAccess
                    rw [checked, digit]
                    dsimp only
                    rw [if_neg small, if_neg known, if_pos zero, most]
                  · unfold vpProcessResult
                    rw [checked, digit]
                    dsimp only
                    rw [if_neg small, if_neg known, if_pos zero, most]
              | some tmp =>
                  have few : ¬ vpDecResultMaxNum ≤ tmp :=
                    Nat.not_le.mpr (hex2num_lt _ _ most)
                  subst zero
                  apply Led.first len checked digit (not_not.mp known)
                  unfold vpAccess
                  rw [checked, digit]
                  dsimp only
                  rw [if_neg small, if_neg known, if_pos rfl, most]
                  dsimp only
                  rw [if_neg few]
            · apply Led.other len idx checked digit zero
              unfold vpAccess
              rw [checked, digit]
              dsimp only
              rw [if_neg small, if_neg known, if_neg zero]

theorem vpAccess_reads_below (priv : VpPriv) (data : List Byte) :
    ∀ index ∈ (vpAccess priv data).reads, index < data.length := by
  have reads := vpCheckReads_below vpDecResultMinLen vpDecResultMaxLen data
    (by decide)
  cases checked : vpCheck data with
  | none =>
      unfold vpAccess
      rw [checked]
      exact reads
  | some len =>
      obtain ⟨shortest, _, _, _⟩ := vpChecked_some _ _ _ _ checked
      unfold vpDecResultMinLen at shortest
      have more : ∀ indexes : List Nat, (∀ index ∈ indexes, index < 4) →
          ∀ index ∈ vpCheckReads vpDecResultMinLen vpDecResultMaxLen data ++
            indexes, index < data.length := by
        intro indexes below index member
        rcases List.mem_append.mp member with early | late
        · exact reads index early
        · have small := below index late
          omega
      have zero := more [0] (by decide)
      have both := more [0, 2] (by decide)
      unfold vpAccess
      rw [checked]
      dsimp only
      cases hex2num (charAt data 0) with
      | none => exact zero
      | some idx =>
          dsimp only
          split
          · exact zero
          · split
            · exact zero
            · split
              · cases hex2num (charAt data 2) with
                | none => exact both
                | some tmp =>
                    dsimp only
                    split
                    · exact both
                    · exact both
              · exact zero

/-- Policy 2 keeps its bounds on everything but the shortest string for
index 0. -/
theorem keepsBounds_iff (priv : VpPriv) (data : List Byte) :
    KeepsBounds priv data ↔ ¬ ShortFirst priv data := by
  have reads := vpAccess_reads_below priv data
  cases led priv data with
  | rejected copy process =>
      apply iff_of_true
      · constructor
        · constructor
          · exact reads
          · rw [copy]
            nofun
        · intro _
          exact process
      · rintro ⟨checked, digit, missing⟩
        obtain ⟨shortest, _, rest, high, second⟩ := vpChecked_some _ _ _ _ checked
        have place : data.length - 2 = 2 := rest.symm
        rw [place] at second
        have small : ¬ vpDecResultMaxNum ≤ 0 := by decide
        have few : ¬ vpDecResultMaxNum ≤ high :=
          Nat.not_le.mpr (hex2num_lt _ _ second)
        unfold vpAccess at copy
        rw [checked, digit] at copy
        dsimp only at copy
        rw [if_neg small, if_neg (not_not.mpr missing), if_pos rfl, second] at copy
        dsimp only at copy
        rw [if_neg few] at copy
        cases copy
  | first len checked digit missing copy =>
      obtain ⟨shortest, longest, rest, _⟩ := vpChecked_some _ _ _ _ checked
      unfold vpDecResultMinLen at shortest
      unfold vpDecResultMaxLen at longest
      constructor
      · rintro keeps ⟨two, _⟩
        have same := Option.some.inj (checked.symm.trans two)
        have bounds := keeps.bounded.copy _ copy
        dsimp only at bounds
        omega
      · intro long
        have three : 3 ≤ len := by
          by_contra two
          have same : len = 2 := by omega
          rw [same] at checked
          exact long ⟨checked, digit, missing⟩
        constructor
        · constructor
          · exact reads
          · rw [copy]
            intro other same
            cases same
            dsimp only
            unfold vpDecResultMaxLen vpDecResultMaxNum
            exact ⟨by decide, by omega, by omega, by omega⟩
        · rw [copy]
          nofun
  | other len idx checked digit positive copy =>
      obtain ⟨shortest, longest, rest, _⟩ := vpChecked_some _ _ _ _ checked
      unfold vpDecResultMinLen at shortest
      unfold vpDecResultMaxLen at longest
      have small := hex2num_lt _ _ digit
      apply iff_of_true
      · constructor
        · constructor
          · exact reads
          · rw [copy]
            intro other same
            cases same
            dsimp only
            unfold vpDecResultMaxLen
            exact ⟨small, by omega, by omega, by omega⟩
        · rw [copy]
          nofun
      · rintro ⟨_, zero, _⟩
        exact positive (Option.some.inj (digit.symm.trans zero))

/-- For any string the decoder gives, both policies keep their bounds exactly
if the string is not the shortest one for a missing index 0 of policy 2. -/
theorem bothPolicies_keepBounds (one : VpPriv1) (two : VpPriv)
    (data : List Byte) :
    (KeepsBounds1 one (vpReceived data) ∧ KeepsBounds two (vpReceived data)) ↔
      ¬ ShortFirst two (vpReceived data) := by
  rw [and_iff_right (keepsBounds1 one (vpReceived data))]
  exact keepsBounds_iff two (vpReceived data)

/-- Index 0, version 0 and their checksum. -/
def shortFirst : List Byte := [0x30, 0x30, 0x39, 0x66]

/-- The string leads to a copy of -1 characters, which no buffer holds. -/
theorem shortFirst_copies :
    vpReceived shortFirst = shortFirst ∧
      (vpAccess vpPrivZero shortFirst).copy =
        some { idx := 0, start := 3, len := -1 } ∧
      vpProcessResult vpPrivZero shortFirst = none ∧
      ¬ KeepsBounds vpPrivZero (vpReceived shortFirst) := by
  have copy : (vpAccess vpPrivZero shortFirst).copy =
      some { idx := 0, start := 3, len := -1 } := by
    decide
  refine ⟨by decide, copy, rfl, ?_⟩
  intro keeps
  have bounds := keeps.bounded.copy _ copy
  exact absurd bounds.2.1 (by decide)

end XR872.VoicePrint
