/-
The decoding of a message without a key.

With all its packets in the buffer, the fields come out as they were sent and
both checksums agree. The one exception is an ssid that fills its field: its
terminator is stored in the first byte of the passphrase.
-/

import XR872.SmartConfig.Transfer

namespace XR872.SmartConfig

open BitView
open Buffers
open Bitmaps
open Traces
open Runs

/-! ### Cells of the two buffers -/

theorem slice_eq (cells data : List Byte) (offset : Nat)
    (same : ∀ index < data.length, cells[offset + index]? = data[index]?) :
    (cells.drop offset).take data.length = data := by
  apply List.ext_getElem?
  intro index
  rw [List.getElem?_take]
  split
  · rename_i inside
    rw [List.getElem?_drop]
    exact same index inside
  · rename_i outside
    exact (List.getElem?_eq_none (Nat.le_of_not_lt outside)).symm

/-- A byte of `result`, if there is one. -/
def Priv.cell (priv : Priv) (place : Nat) : Option Byte :=
  priv.result.cells[place]?

theorem cell_withField_inside (priv : Priv) (place : Nat) (data : List Byte)
    (within : place + data.length ≤ resultSize) (index : Nat)
    (inside : index < data.length) :
    (priv.withField place data within).cell (place + index) = data[index]? :=
  Buffer.getElem?_store_inside priv.result place data within index inside

theorem cell_withField_outside (priv : Priv) (place : Nat) (data : List Byte)
    (within : place + data.length ≤ resultSize) (index : Nat)
    (outside : index < place ∨ place + data.length ≤ index) :
    (priv.withField place data within).cell index = priv.cell index :=
  Buffer.getElem?_store_outside priv.result place data within index outside

theorem cell_withByte_other (priv : Priv) (offset : Nat) (value : Byte)
    (index : Nat) (differs : offset ≠ index) :
    (priv.withByte offset value).cell index = priv.cell index := by
  unfold Priv.withByte Priv.cell
  rw [Buffer.modify_cells, List.getElem?_modify]
  simp [differs]

section Plain

variable (priv : Priv) {ssidSize pwdSize : Byte}
  (sizes : PlainSizes ssidSize pwdSize) (room : pwdSize.toNat ≤ 63)

theorem plain_ssid_cell (index : Nat) (inside : index < ssidSize.toNat) :
    (priv.plain sizes room).cell (fieldBase .ssid + index) =
      (priv.srcBytes pwdSize.toNat ssidSize.toNat)[index]? := by
  have ssid := sizes.ssid
  have length := length_srcBytes priv pwdSize.toNat ssidSize.toNat
    sizes.ssid_source
  unfold Priv.plain Priv.terminated Priv.copied Priv.named
  rw [cell_withField_outside, cell_withField_outside, cell_withField_outside]
  · exact cell_withField_inside _ _ _ _ index (by rw [length]; exact inside)
  · left
    change 0 + index < 32 + 0
    omega
  · left
    change 0 + index < 32 + _
    omega
  · left
    change 0 + index < 0 + _
    omega

theorem plain_pwd_cell (index : Nat) (inside : index < pwdSize.toNat)
    (apart : ssidSize.toNat = 32 → index ≠ 0) :
    (priv.plain sizes room).cell (fieldBase .pwd + index) =
      (priv.srcBytes 0 pwdSize.toNat)[index]? := by
  have ssid := sizes.ssid
  have length := length_srcBytes priv 0 pwdSize.toNat sizes.pwd_source
  unfold Priv.plain Priv.terminated Priv.copied
  rw [cell_withField_outside, cell_withField_outside]
  · exact cell_withField_inside _ _ _ _ index (by rw [length]; exact inside)
  · left
    change 32 + index < 32 + _
    omega
  · right
    change 0 + ssidSize.toNat + 1 ≤ 32 + index
    omega

theorem plain_pwd_first (full : ssidSize.toNat = 32) :
    (priv.plain sizes room).cell (fieldBase .pwd) = some 0 := by
  have place : fieldBase .pwd = ssidOffset + ssidSize.toNat + 0 := by
    rw [full]
    rfl
  unfold Priv.plain Priv.terminated
  rw [place, cell_withField_inside _ _ _ _ 0 (by decide)]
  rfl

theorem plain_len (offset : Nat) (behind : 96 ≤ offset) :
    (priv.plain sizes room).resultByte offset =
      (priv.sized ssidSize pwdSize).resultByte offset := by
  have ssid := sizes.ssid
  unfold Priv.plain Priv.terminated
  rw [resultByte_withField, resultByte_withField]
  · exact copied_len priv sizes offset behind
  · right
    change 32 + _ + 1 ≤ offset
    omega
  · right
    change 0 + _ + 1 ≤ offset
    omega

end Plain

/-! ### Checksums -/

/-- The checksums are compared, and `result` stays as it is. -/
theorem checkFields_returns (lead : LeadCode) (priv : Priv)
    (pwdFits : (priv.resultByte pwdLenOffset).toNat ≤ 63)
    (ssidFits : (priv.resultByte ssidLenOffset).toNat ≤ 32)
    (place : lead.ssidpwdLen + lead.ssidpwdLen % 2 + 2 ≤ srcDataSize) :
    let done := checkFields lead priv
    done.state.result = priv.result ∧
      ∃ right, done.value = some right ∧
        (right = true ↔
          [calCrc8 (priv.fieldBytes .pwd
              (priv.resultByte pwdLenOffset).toNat)] =
              priv.srcBytes (lead.ssidpwdLen + lead.ssidpwdLen % 2) 1 ∧
            [calCrc8 (priv.fieldBytes .ssid
              (priv.resultByte ssidLenOffset).toNat)] =
              priv.srcBytes (lead.ssidpwdLen + lead.ssidpwdLen % 2 + 1) 1) := by
  have first := loadSrc_apply (lead.ssidpwdLen + lead.ssidpwdLen % 2) 1 priv
    (Or.inr (by omega))
  have second := loadSrc_apply (lead.ssidpwdLen + lead.ssidpwdLen % 2 + 1) 1
    priv (Or.inr (by omega))
  have pwd := fieldCrc8_apply .pwd pwdLenOffset priv
    (by change 32 + _ ≤ 99; omega)
  have ssid := fieldCrc8_apply .ssid ssidLenOffset priv
    (by change 0 + _ ≤ 99; omega)
  have zeroed := storeSrc_apply 0 [0] priv (by decide)
  dsimp only
  unfold checkFields
  rw [Traced.bind_returned _ _ _ _ _ _ first,
    Traced.bind_returned _ _ _ _ _ _ pwd]
  by_cases same : [calCrc8 (priv.fieldBytes .pwd
      (priv.resultByte pwdLenOffset).toNat)] =
        priv.srcBytes (lead.ssidpwdLen + lead.ssidpwdLen % 2) 1
  · rw [if_neg (not_not_intro same), Traced.bind_returned _ _ _ _ _ _ second,
      Traced.bind_returned _ _ _ _ _ _ ssid,
      Traced.bind_returned _ _ _ _ _ _ zeroed]
    refine ⟨rfl, _, rfl, ?_⟩
    rw [decide_eq_true_iff]
    exact (and_iff_right same).symm
  · rw [if_pos same, Traced.bind_returned _ _ _ _ _ _ zeroed]
    refine ⟨rfl, _, rfl, ?_⟩
    exact iff_of_false Bool.false_ne_true fun both => same both.1

/-! ### The decoding of a message -/

/-- The message in `result`. -/
structure Delivered (message : Message) (priv : Priv) : Prop where
  ssidLen : (priv.resultByte ssidLenOffset).toNat = message.ssid.length
  ssid : priv.fieldBytes .ssid message.ssid.length = message.ssid
  pwdLen : (priv.resultByte pwdLenOffset).toNat = message.pwd.length
  pwd : priv.fieldBytes .pwd message.pwd.length = message.pwd
  random : priv.resultByte randomOffset = message.random

theorem Delivered.of_result {message : Message} {priv other : Priv}
    (delivered : Delivered message priv) (same : other.result = priv.result) :
    Delivered message other := by
  have bytes : ∀ offset, other.resultByte offset = priv.resultByte offset := by
    intro offset
    unfold Priv.resultByte
    rw [same]
  have fields : ∀ field len,
      other.fieldBytes field len = priv.fieldBytes field len := by
    intro field len
    unfold Priv.fieldBytes
    rw [same]
  exact
    { ssidLen := bytes ssidLenOffset ▸ delivered.ssidLen
      ssid := fields .ssid _ ▸ delivered.ssid
      pwdLen := bytes pwdLenOffset ▸ delivered.pwdLen
      pwd := fields .pwd _ ▸ delivered.pwd
      random := bytes randomOffset ▸ delivered.random }

structure LeadOf (message : Message) (lead : LeadCode) : Prop where
  len : lead.ssidpwdLen = message.len
  pwdLen : lead.pwdLen = message.pwd.length
  total : lead.packetTotal = message.total
  random : lead.random = message.random
  complete : lead.leadCompleteFlag = true

/-- The ssid fills its field and the passphrase starts with a byte its
terminator changes. -/
def Message.clipped (message : Message) : Prop :=
  message.ssid.length = 32 ∧ message.pwd.getD 0 0 ≠ 0

section Message

variable {message : Message} {lead : LeadCode} (known : LeadOf message lead)

include known in
theorem LeadOf.sizes :
    (srcSsidSize lead).toNat = message.ssid.length ∧
      (srcPwdSize lead).toNat = message.pwd.length := by
  have ssid := message.ssid_le
  have pwd := message.pwd_le
  unfold srcSsidSize srcPwdSize
  rw [BitVec.toNat_ofInt, BitVec.toNat_ofInt, known.len, known.pwdLen]
  unfold Message.len
  omega

include known in
theorem LeadOf.plainSizes : PlainSizes (srcSsidSize lead) (srcPwdSize lead) := by
  have ssid := message.ssid_le
  have pwd := message.pwd_le
  obtain ⟨ssidSize, pwdSize⟩ := known.sizes
  exact
    { ssid := by omega
      pwd := by omega }

include known in
theorem LeadOf.room : (srcPwdSize lead).toNat ≤ 63 := by
  rw [known.sizes.2]
  exact message.pwd_le

theorem body_pwd (index : Nat) (inside : index < message.pwd.length) :
    message.body[0 + index]? = message.pwd[index]? := by
  unfold Message.body
  rw [Nat.zero_add, List.append_assoc, List.append_assoc,
    List.getElem?_append_left inside]

theorem body_ssid (index : Nat) (inside : index < message.ssid.length) :
    message.body[message.pwd.length + index]? = message.ssid[index]? := by
  unfold Message.body
  rw [List.append_assoc, List.append_assoc,
    List.getElem?_append_right (Nat.le_add_right _ _), Nat.add_sub_cancel_left,
    List.getElem?_append_left inside]

theorem body_crc (index : Nat) :
    message.body[message.len + message.len % 2 + index]? =
      [calCrc8 message.pwd, calCrc8 message.ssid][index]? := by
  have front : (message.pwd ++ message.ssid ++ message.padding).length =
      message.len + message.len % 2 := by
    unfold Message.padding
    rw [List.length_append, List.length_append]
    split
    · rename_i even
      rw [even]
      exact congrArg (fun n => n + 0) (Nat.add_comm _ _)
    · rename_i odd
      have rest : message.len % 2 = 1 := by omega
      rw [rest]
      exact congrArg (fun n => n + 1) (Nat.add_comm _ _)
  unfold Message.body
  rw [List.getElem?_append_right (by rw [front]; exact Nat.le_add_right _ _),
    front, Nat.add_sub_cancel_left]

variable {priv : Priv}
  (src : ∀ index < 2 * message.total,
    priv.srcDataBuff.cells[index]? = message.body[index]?)

include src in
theorem srcBytes_message (offset : Nat) (data : List Byte)
    (fits : offset + data.length ≤ 2 * message.total)
    (part : ∀ index < data.length,
      message.body[offset + index]? = data[index]?) :
    priv.srcBytes offset data.length = data := by
  apply slice_eq
  intro index inside
  rw [src _ (by omega)]
  exact part index inside

include known src in
theorem srcBytes_fields :
    priv.srcBytes 0 (srcPwdSize lead).toNat = message.pwd ∧
      priv.srcBytes (srcPwdSize lead).toNat (srcSsidSize lead).toNat =
        message.ssid := by
  obtain ⟨ssidSize, pwdSize⟩ := known.sizes
  have total : message.len ≤ 2 * message.total := by
    unfold Message.total
    omega
  unfold Message.len at total
  rw [ssidSize, pwdSize]
  constructor
  · exact srcBytes_message src 0 message.pwd (by omega) body_pwd
  · exact srcBytes_message src _ message.ssid (by omega) body_ssid

include src in
theorem srcBytes_crc :
    priv.srcBytes (message.len + message.len % 2) 1 = [calCrc8 message.pwd] ∧
      priv.srcBytes (message.len + message.len % 2 + 1) 1 =
        [calCrc8 message.ssid] := by
  have total : message.len + message.len % 2 + 2 = 2 * message.total := by
    unfold Message.total
    omega
  constructor
  · apply srcBytes_message src _ [calCrc8 message.pwd]
    · change _ + 1 ≤ _
      omega
    · intro index inside
      have first : index = 0 := Nat.lt_one_iff.mp inside
      subst first
      exact body_crc 0
  · apply srcBytes_message src _ [calCrc8 message.ssid]
    · change _ + 1 + 1 ≤ _
      omega
    · intro index inside
      have first : index = 0 := Nat.lt_one_iff.mp inside
      subst first
      exact body_crc 1

/-- `priv` behind the copied fields and the random byte. -/
def Priv.decoded (priv : Priv) (known : LeadOf message lead) : Priv :=
  (priv.plain known.plainSizes known.room).withByte randomOffset lead.random

variable (priv) in
theorem decoded_len :
    ((priv.decoded known).resultByte ssidLenOffset).toNat =
        message.ssid.length ∧
      ((priv.decoded known).resultByte pwdLenOffset).toNat =
        message.pwd.length := by
  unfold Priv.decoded
  rw [resultByte_withByte_other _ _ _ _ (by decide),
    resultByte_withByte_other _ _ _ _ (by decide), plain_len _ _ _ _ (by decide),
    plain_len _ _ _ _ (by decide), sized_ssidLen, sized_pwdLen]
  exact known.sizes

theorem decoded_random :
    (priv.decoded known).resultByte randomOffset = message.random :=
  (resultByte_withByte _ _ _ (by decide)).trans known.random

include src in
theorem decoded_ssid :
    (priv.decoded known).fieldBytes .ssid message.ssid.length =
      message.ssid := by
  have ssid := message.ssid_le
  obtain ⟨ssidSize, _⟩ := known.sizes
  apply slice_eq
  intro index inside
  refine (cell_withByte_other _ _ _ _ ?_).trans ?_
  · change 98 ≠ 0 + index
    omega
  · rw [plain_ssid_cell _ _ _ _ (by omega), (srcBytes_fields known src).2]

include src in
theorem decoded_pwd (unclipped : ¬ message.clipped) :
    (priv.decoded known).fieldBytes .pwd message.pwd.length = message.pwd := by
  have pwd := message.pwd_le
  obtain ⟨ssidSize, pwdSize⟩ := known.sizes
  apply slice_eq
  intro index inside
  refine (cell_withByte_other _ _ _ _ ?_).trans ?_
  · change 98 ≠ 32 + index
    omega
  · by_cases full : message.ssid.length = 32 ∧ index = 0
    · have zero : message.pwd.getD 0 0 = 0 := by
        by_contra nonzero
        exact unclipped ⟨full.1, nonzero⟩
      rw [full.2] at inside ⊢
      rw [List.getD_eq_getElem?_getD, List.getElem?_eq_getElem inside] at zero
      rw [List.getElem?_eq_getElem inside]
      refine (plain_pwd_first _ _ _ (by omega)).trans ?_
      exact congrArg some zero.symm
    · rw [plain_pwd_cell _ _ _ _ (by omega) (by omega),
        (srcBytes_fields known src).1]

theorem decoded_pwd_clipped (clipped : message.clipped) :
    (priv.decoded known).fieldBytes .pwd message.pwd.length ≠ message.pwd := by
  obtain ⟨full, first⟩ := clipped
  obtain ⟨ssidSize, _⟩ := known.sizes
  intro same
  apply first
  have cell : (priv.decoded known).cell (fieldBase .pwd) = some 0 :=
    (cell_withByte_other _ _ _ _ (by decide)).trans
      (plain_pwd_first _ _ _ (ssidSize.trans full))
  rw [← same, List.getD_eq_getElem?_getD]
  unfold Priv.fieldBytes
  rw [List.getElem?_take]
  split
  · rw [List.getElem?_drop]
    exact congrArg (fun byte => byte.getD 0) cell
  · rfl

theorem decoded_srcBytes (offset len : Nat) :
    (priv.decoded known).srcBytes offset len = priv.srcBytes offset len := rfl

variable (priv) in
theorem decodeFields_plain (engine : CryptoEngine) :
    (decodeFields engine lead false priv).value =
        (checkFields lead (priv.decoded known)).value ∧
      (decodeFields engine lead false priv).state =
        (checkFields lead (priv.decoded known)).state := by
  have plain := decPlain_apply priv known.plainSizes known.room
  have fields : ∃ events, decFields engine lead false priv =
      { value := some true
        state := priv.plain known.plainSizes known.room
        events := events } := by
    unfold decFields
    rw [if_neg Bool.false_ne_true, Traced.bind_returned _ _ _ _ _ _ plain]
    exact ⟨_, rfl⟩
  obtain ⟨events, fields⟩ := fields
  unfold decodeFields
  rw [Traced.bind_returned _ _ _ _ _ _ fields, if_pos rfl,
    Traced.bind_returned _ _ _ _ _ _ (setResultByte_apply _ _ _)]
  exact ⟨rfl, rfl⟩

include known src in
/-- The decoding of all packets of a message: it succeeds with the message, or
the passphrase is clipped. -/
theorem decodeFields_message (engine : CryptoEngine) :
    let done := decodeFields engine lead false priv
    ∃ right, done.value = some right ∧
      (¬ message.clipped → right = true ∧ Delivered message done.state) ∧
      (message.clipped → ¬ Delivered message done.state) := by
  have ssidLe := message.ssid_le
  have pwdLe := message.pwd_le
  obtain ⟨ssidLen, pwdLen⟩ := decoded_len known priv
  have place : lead.ssidpwdLen + lead.ssidpwdLen % 2 + 2 ≤ srcDataSize := by
    rw [known.len]
    unfold Message.len
    change _ ≤ 128
    omega
  obtain ⟨result, right, value, answer⟩ := checkFields_returns lead
    (priv.decoded known) (by omega) (by omega) place
  obtain ⟨pwdCrc, ssidCrc⟩ := srcBytes_crc src
  rw [ssidLen, pwdLen, known.len, decoded_srcBytes, decoded_srcBytes, pwdCrc,
    ssidCrc, decoded_ssid known src] at answer
  obtain ⟨sameValue, sameState⟩ := decodeFields_plain known priv engine
  refine ⟨right, sameValue.trans value, ?_, ?_⟩
  · intro unclipped
    have pwd := decoded_pwd known src unclipped
    rw [pwd] at answer
    have delivered : Delivered message (priv.decoded known) :=
      { ssidLen := ssidLen
        ssid := decoded_ssid known src
        pwdLen := pwdLen
        pwd := pwd
        random := decoded_random known }
    refine ⟨answer.mpr ⟨rfl, rfl⟩, ?_⟩
    rw [sameState]
    exact delivered.of_result result
  · intro clipped delivered
    rw [sameState] at delivered
    exact decoded_pwd_clipped known clipped
      (delivered.of_result result.symm).pwd

end Message

end XR872.SmartConfig
