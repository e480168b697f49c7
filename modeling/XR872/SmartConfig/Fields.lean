/-
Accesses that stay in the memory behind `priv`.

Such an access returns, and a byte of `result` it does not cover keeps its
value.
-/

import XR872.SmartConfig.DecodeSpec

namespace XR872.SmartConfig

open BitView
open Buffers
open Traces

/-- `len` bytes of `src_data_buff` from `offset` on. -/
def Priv.srcBytes (priv : Priv) (offset len : Nat) : List Byte :=
  (priv.srcDataBuff.cells.drop offset).take len

/-- The first `len` bytes of a field. -/
def Priv.fieldBytes (priv : Priv) (field : Region) (len : Nat) : List Byte :=
  (priv.result.cells.drop (fieldBase field)).take len

theorem loadSrc_apply (offset len : Nat) (priv : Priv)
    (within : len = 0 ∨ offset + len ≤ srcDataSize) :
    loadSrc offset len priv =
      { value := some (priv.srcBytes offset len)
        state := priv
        events := [.load .srcData offset len] } := by
  unfold loadSrc
  rw [Traced.emit_bind_apply, Traced.get_bind_apply, Traced.ite_apply,
    if_pos within]
  rfl

theorem length_srcBytes (priv : Priv) (offset len : Nat)
    (within : len = 0 ∨ offset + len ≤ srcDataSize) :
    (priv.srcBytes offset len).length = len := by
  have size := priv.srcDataBuff.size
  unfold Priv.srcBytes
  rw [List.length_take, List.length_drop, size]
  omega

theorem loadResult_apply (field : Region) (len : Nat) (priv : Priv)
    (within : len = 0 ∨ fieldBase field + len ≤ resultSize) :
    loadResult field len priv =
      { value := some (priv.fieldBytes field len)
        state := priv
        events := [.load field 0 len] } := by
  unfold loadResult
  rw [Traced.emit_bind_apply, Traced.get_bind_apply, Traced.ite_apply,
    if_pos within]
  rfl

/-- `result` after a store to a field. -/
def Priv.withField (priv : Priv) (place : Nat) (data : List Byte)
    (within : place + data.length ≤ resultSize) : Priv :=
  { priv with result := priv.result.store place data within }

theorem storeResult_apply (field : Region) (offset : Nat) (data : List Byte)
    (priv : Priv) (within : fieldBase field + offset + data.length ≤ resultSize) :
    storeResult field offset data priv =
      { value := some ()
        state := priv.withField (fieldBase field + offset) data within
        events := [.store field offset data.length] } := by
  unfold storeResult
  rw [Traced.emit_bind_apply]
  by_cases none : data = []
  · subst none
    rw [if_pos rfl]
    unfold Priv.withField
    rw [Buffer.store_nil]
    rfl
  · rw [if_neg none, dif_pos within]
    rfl

/-! ### Bytes of `result` -/

theorem resultByte_withField (priv : Priv) (place : Nat) (data : List Byte)
    (within : place + data.length ≤ resultSize) (offset : Nat)
    (outside : offset < place ∨ place + data.length ≤ offset) :
    (priv.withField place data within).resultByte offset =
      priv.resultByte offset := by
  unfold Priv.withField Priv.resultByte
  rw [List.getD_eq_getElem?_getD, List.getD_eq_getElem?_getD]
  exact congrArg (fun cell => cell.getD 0)
    (Buffer.getElem?_store_outside priv.result place data within offset outside)

def Priv.withByte (priv : Priv) (offset : Nat) (value : Byte) : Priv :=
  { priv with result := priv.result.modify offset fun _ => value }

theorem setResultByte_apply (offset : Nat) (value : Byte) (priv : Priv) :
    setResultByte offset value priv =
      { value := some (), state := priv.withByte offset value, events := [] } :=
  rfl

theorem resultByte_withByte (priv : Priv) (offset : Nat) (value : Byte)
    (within : offset < resultSize) :
    (priv.withByte offset value).resultByte offset = value := by
  have present : offset < priv.result.cells.length := by
    rw [priv.result.size]
    exact within
  unfold Priv.withByte Priv.resultByte
  rw [Buffer.modify_cells, List.getD_eq_getElem?_getD, List.getElem?_modify,
    List.getElem?_eq_getElem present]
  simp

theorem resultByte_withByte_other (priv : Priv) (offset other : Nat)
    (value : Byte) (differs : offset ≠ other) :
    (priv.withByte offset value).resultByte other = priv.resultByte other := by
  unfold Priv.withByte Priv.resultByte
  rw [Buffer.modify_cells, List.getD_eq_getElem?_getD, List.getElem?_modify,
    List.getD_eq_getElem?_getD]
  simp [differs]

/-! ### Terminators -/

/-- `priv` behind both terminators. -/
def Priv.terminated (priv : Priv) (pwdLen ssidLen : Nat)
    (pwdFits : pwdLen ≤ 63) (ssidFits : ssidLen ≤ 32) : Priv :=
  (priv.withField (pwdOffset + pwdLen) [0]
      (by change 32 + pwdLen + 1 ≤ 99; omega)).withField (ssidOffset + ssidLen)
    [0] (by change 0 + ssidLen + 1 ≤ 99; omega)

/-- With a passphrase that leaves room for its terminator, both terminators are
stored. -/
theorem terminate_apply (priv : Priv)
    (pwdFits : (priv.resultByte pwdLenOffset).toNat ≤ 63)
    (ssidFits : (priv.resultByte ssidLenOffset).toNat ≤ 32) :
    terminate priv =
      { value := some ()
        state := priv.terminated (priv.resultByte pwdLenOffset).toNat
          (priv.resultByte ssidLenOffset).toNat pwdFits ssidFits
        events :=
          [ .store .pwd (priv.resultByte pwdLenOffset).toNat 1,
            .store .ssid (priv.resultByte ssidLenOffset).toNat 1 ] } := by
  have inPwd : fieldBase .pwd + (priv.resultByte pwdLenOffset).toNat +
      ([0] : List Byte).length ≤ resultSize := by
    change 32 + _ + 1 ≤ 99
    omega
  have inSsid : fieldBase .ssid + (priv.resultByte ssidLenOffset).toNat +
      ([0] : List Byte).length ≤ resultSize := by
    change 0 + _ + 1 ≤ 99
    omega
  have kept := resultByte_withField priv _ [0] inPwd ssidLenOffset
    (Or.inr (by
      change 32 + _ + 1 ≤ 96
      omega))
  unfold terminate
  rw [Traced.get_bind_apply, Traced.bind_returned _ _ _ _ _ _
    (storeResult_apply .pwd _ [0] priv inPwd), Traced.get_bind_apply]
  simp only [kept]
  rw [storeResult_apply .ssid _ [0] _ inSsid]
  rfl

/-! ### The branch without a key -/

structure PlainSizes (ssidSize pwdSize : Byte) : Prop where
  ssid : ssidSize.toNat ≤ 32
  pwd : pwdSize.toNat ≤ 64

section Plain

variable (priv : Priv) (ssidSize pwdSize : Byte)

/-- `priv` with both lengths set. -/
def Priv.sized : Priv :=
  (priv.withByte ssidLenOffset ssidSize).withByte pwdLenOffset pwdSize

theorem sized_ssidLen :
    (priv.sized ssidSize pwdSize).resultByte ssidLenOffset = ssidSize := by
  unfold Priv.sized
  rw [resultByte_withByte_other _ _ _ _ (by decide),
    resultByte_withByte _ _ _ (by decide)]

theorem sized_pwdLen :
    (priv.sized ssidSize pwdSize).resultByte pwdLenOffset = pwdSize := by
  unfold Priv.sized
  rw [resultByte_withByte _ _ _ (by decide)]

variable {ssidSize pwdSize} (sizes : PlainSizes ssidSize pwdSize)

include sizes in
theorem PlainSizes.ssid_source :
    ssidSize.toNat = 0 ∨ pwdSize.toNat + ssidSize.toNat ≤ srcDataSize := by
  have ssid := sizes.ssid
  have pwd := sizes.pwd
  right
  change _ ≤ 128
  omega

include sizes in
theorem PlainSizes.pwd_source :
    pwdSize.toNat = 0 ∨ 0 + pwdSize.toNat ≤ srcDataSize := by
  have pwd := sizes.pwd
  right
  change _ ≤ 128
  omega

include sizes in
theorem PlainSizes.ssid_within :
    fieldBase .ssid + 0 +
      (priv.srcBytes pwdSize.toNat ssidSize.toNat).length ≤ resultSize := by
  have ssid := sizes.ssid
  rw [length_srcBytes _ _ _ sizes.ssid_source]
  change 0 + 0 + _ ≤ 99
  omega

include sizes in
theorem PlainSizes.pwd_within :
    fieldBase .pwd + 0 + (priv.srcBytes 0 pwdSize.toNat).length ≤ resultSize := by
  have pwd := sizes.pwd
  rw [length_srcBytes _ _ _ sizes.pwd_source]
  change 32 + 0 + _ ≤ 99
  omega

/-- `priv` with the ssid copied. -/
def Priv.named : Priv :=
  (priv.sized ssidSize pwdSize).withField (fieldBase .ssid + 0)
    (priv.srcBytes pwdSize.toNat ssidSize.toNat) (sizes.ssid_within priv)

/-- `priv` with both fields copied. -/
def Priv.copied : Priv :=
  (priv.named sizes).withField (fieldBase .pwd + 0)
    (priv.srcBytes 0 pwdSize.toNat) (sizes.pwd_within priv)

theorem named_len (offset : Nat) (behind : 32 ≤ offset) :
    (priv.named sizes).resultByte offset =
      (priv.sized ssidSize pwdSize).resultByte offset := by
  have ssid := sizes.ssid
  apply resultByte_withField
  right
  rw [length_srcBytes _ _ _ sizes.ssid_source]
  change 0 + 0 + _ ≤ offset
  omega

theorem copied_len (offset : Nat) (behind : 96 ≤ offset) :
    (priv.copied sizes).resultByte offset =
      (priv.sized ssidSize pwdSize).resultByte offset := by
  have pwd := sizes.pwd
  refine Eq.trans ?_ (named_len priv sizes offset (by omega))
  apply resultByte_withField
  right
  rw [length_srcBytes _ _ _ sizes.pwd_source]
  change 32 + 0 + _ ≤ offset
  omega

theorem copied_ssidLen :
    (priv.copied sizes).resultByte ssidLenOffset = ssidSize :=
  (copied_len priv sizes ssidLenOffset (by decide)).trans
    (sized_ssidLen priv ssidSize pwdSize)

theorem copied_pwdLen :
    (priv.copied sizes).resultByte pwdLenOffset = pwdSize :=
  (copied_len priv sizes pwdLenOffset (by decide)).trans
    (sized_pwdLen priv ssidSize pwdSize)

theorem copyFields_apply :
    copyFields ssidSize pwdSize priv =
      { value := some ()
        state := priv.copied sizes
        events :=
          [ .load .srcData pwdSize.toNat ssidSize.toNat,
            .store .ssid 0 ssidSize.toNat,
            .load .srcData 0 pwdSize.toNat,
            .store .pwd 0 pwdSize.toNat ] } := by
  have ssidLength := length_srcBytes priv pwdSize.toNat ssidSize.toNat
    sizes.ssid_source
  have pwdLength := length_srcBytes priv 0 pwdSize.toNat sizes.pwd_source
  have sizing : (priv.withByte ssidLenOffset ssidSize).withByte pwdLenOffset
      pwdSize = priv.sized ssidSize pwdSize := rfl
  have loadSsid := loadSrc_apply pwdSize.toNat ssidSize.toNat
    (priv.sized ssidSize pwdSize) sizes.ssid_source
  have storeSsid := storeResult_apply .ssid 0
    (priv.srcBytes pwdSize.toNat ssidSize.toNat)
    (priv.sized ssidSize pwdSize) (sizes.ssid_within priv)
  have behind := (named_len priv sizes pwdLenOffset (by decide)).trans
    (sized_pwdLen priv ssidSize pwdSize)
  have loadPwd := loadSrc_apply 0 pwdSize.toNat (priv.named sizes)
    sizes.pwd_source
  have storePwd := storeResult_apply .pwd 0 (priv.srcBytes 0 pwdSize.toNat)
    (priv.named sizes) (sizes.pwd_within priv)
  change loadSrc _ _ _ =
    { value := some (priv.srcBytes pwdSize.toNat ssidSize.toNat)
      state := _, events := _ } at loadSsid
  change storeResult _ _ _ _ =
    { value := _, state := priv.named sizes, events := _ } at storeSsid
  change loadSrc _ _ _ =
    { value := some (priv.srcBytes 0 pwdSize.toNat)
      state := _, events := _ } at loadPwd
  change storeResult _ _ _ _ =
    { value := _, state := priv.copied sizes, events := _ } at storePwd
  unfold copyFields
  simp only [Traced.bind_apply, setResultByte_apply, sizing, Traced.get_apply,
    sized_ssidLen, loadSsid, storeSsid, behind, loadPwd, storePwd,
    ssidLength, pwdLength]
  rfl

/-- `priv` behind the branch. -/
def Priv.plain (room : pwdSize.toNat ≤ 63) : Priv :=
  (priv.copied sizes).terminated pwdSize.toNat ssidSize.toNat room sizes.ssid

theorem decPlain_apply (room : pwdSize.toNat ≤ 63) :
    decPlain ssidSize pwdSize priv =
      { value := some ()
        state := priv.plain sizes room
        events :=
          [ .load .srcData pwdSize.toNat ssidSize.toNat,
            .store .ssid 0 ssidSize.toNat,
            .load .srcData 0 pwdSize.toNat,
            .store .pwd 0 pwdSize.toNat,
            .store .pwd pwdSize.toNat 1,
            .store .ssid ssidSize.toNat 1 ] } := by
  have ends := terminate_apply (priv.copied sizes)
    (by rw [copied_pwdLen]; exact room)
    (by rw [copied_ssidLen]; exact sizes.ssid)
  simp only [copied_ssidLen, copied_pwdLen] at ends
  unfold decPlain
  rw [Traced.bind_returned _ _ _ _ _ _ (copyFields_apply priv sizes), ends]
  rfl

end Plain

end XR872.SmartConfig
