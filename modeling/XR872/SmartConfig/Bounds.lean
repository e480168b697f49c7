/-
Which decodings stay inside their objects.

Without a key the two sizes decide it: the terminators need one byte behind each
field. With a key it also depends on what the engine returns: the padding loop
runs to the front of the buffer, and the text is as long as its first zero says.
-/

import XR872.SmartConfig.Fields

namespace XR872.SmartConfig

open BitView
open Buffers
open Bitmaps
open Traces

/-! ### Single accesses -/

section Accesses

variable (priv : Priv)

theorem within_loadSrc (offset len : Nat) :
    Traced.Within Event.inside (loadSrc offset len) priv ↔
      len = 0 ∨ offset + len ≤ srcDataSize := by
  have inside : Event.inside (.load .srcData offset len) ↔
      len = 0 ∨ offset + len ≤ srcDataSize := by
    change len = 0 ∨ (0 : Int) ≤ offset ∧ (offset : Int) + len ≤ (128 : Nat) ↔
      len = 0 ∨ offset + len ≤ 128
    omega
  unfold loadSrc
  rw [Traced.within_bind, Traced.within_emit, inside]
  apply and_iff_left
  intro value _
  rw [Traced.within_bind]
  refine ⟨Traced.within_get _ _, ?_⟩
  intro value _
  split
  · exact Traced.within_pure _ _ _
  · exact Traced.within_stop _ _

theorem within_storeSrc (offset : Nat) (data : List Byte) :
    Traced.Within Event.inside (storeSrc offset data) priv ↔
      data.length = 0 ∨ offset + data.length ≤ srcDataSize := by
  have inside : Event.inside (.store .srcData offset data.length) ↔
      data.length = 0 ∨ offset + data.length ≤ srcDataSize := by
    change data.length = 0 ∨
        (0 : Int) ≤ offset ∧ (offset : Int) + data.length ≤ (128 : Nat) ↔
      data.length = 0 ∨ offset + data.length ≤ 128
    omega
  unfold storeSrc
  rw [Traced.within_bind, Traced.within_emit, inside]
  apply and_iff_left
  intro value _
  split
  · exact Traced.within_update _ _ _
  · exact Traced.within_stop _ _

theorem within_storeResult (field : Region) (offset : Nat) (data : List Byte) :
    Traced.Within Event.inside (storeResult field offset data) priv ↔
      data.length = 0 ∨ offset + data.length ≤ field.size := by
  have inside : Event.inside (.store field offset data.length) ↔
      data.length = 0 ∨ offset + data.length ≤ field.size := by
    change data.length = 0 ∨
        (0 : Int) ≤ offset ∧ (offset : Int) + data.length ≤ field.size ↔ _
    omega
  unfold storeResult
  rw [Traced.within_bind, Traced.within_emit, inside]
  apply and_iff_left
  intro value _
  split
  · exact Traced.within_pure _ _ _
  · split
    · exact Traced.within_update _ _ _
    · exact Traced.within_stop _ _

end Accesses

/-! ### Terminators -/

def Priv.room (priv : Priv) : Prop :=
  (priv.resultByte pwdLenOffset).toNat ≤ 63 ∧
    (priv.resultByte ssidLenOffset).toNat ≤ 31

theorem within_terminate (priv : Priv) :
    Traced.Within Event.inside terminate priv ↔ priv.room := by
  have one : ∀ offset size : Nat,
      (([0] : List Byte).length = 0 ∨ offset + ([0] : List Byte).length ≤ size) ↔
        offset + 1 ≤ size := by
    intro offset size
    change (1 = 0 ∨ offset + 1 ≤ size) ↔ _
    omega
  unfold terminate Priv.room
  rw [Traced.within_bind_returned _ _ _ _ _ _ _ (Traced.get_apply priv),
    Traced.within_bind, within_storeResult, one]
  have empty : ∀ event ∈ ([] : List Event), event.inside := by
    intro event member
    cases member
  constructor
  · intro both
    obtain ⟨_, pwdFits, later⟩ := both
    change _ ≤ 64 at pwdFits
    have stored := storeResult_apply .pwd
      (priv.resultByte pwdLenOffset).toNat [0] priv
      (by change 32 + _ + 1 ≤ 99; omega)
    rw [stored] at later
    have last := later () rfl
    rw [Traced.within_bind_returned _ _ _ _ _ _ _ (Traced.get_apply _),
      within_storeResult, one, resultByte_withField _ _ _ _ _ (Or.inr (by
        change 32 + _ + 1 ≤ 96
        omega))] at last
    have ssidFits := last.2
    change _ ≤ 32 at ssidFits
    exact ⟨by omega, by omega⟩
  · intro room
    have pwdFits := room.1
    have ssidFits := room.2
    refine ⟨empty, by change _ ≤ 64; omega, ?_⟩
    intro value _
    rw [storeResult_apply .pwd _ [0] priv (by change 32 + _ + 1 ≤ 99; omega),
      Traced.within_bind_returned _ _ _ _ _ _ _ (Traced.get_apply _),
      within_storeResult, one, resultByte_withField _ _ _ _ _ (Or.inr (by
        change 32 + _ + 1 ≤ 96
        omega))]
    exact ⟨empty, by change _ ≤ 32; omega⟩

/-! ### The branch without a key -/

theorem within_copyFields (priv : Priv) (ssidSize pwdSize : Byte) :
    Traced.Within Event.inside (copyFields ssidSize pwdSize) priv ↔
      PlainSizes ssidSize pwdSize := by
  constructor
  · intro within
    unfold copyFields at within
    rw [Traced.within_bind_returned _ _ _ _ _ _ _ (setResultByte_apply _ _ _),
      Traced.within_bind_returned _ _ _ _ _ _ _ (setResultByte_apply _ _ _),
      Traced.within_bind_returned _ _ _ _ _ _ _ (Traced.get_apply _)] at within
    have start := within.2.2.2
    change Traced.Within _ _ (priv.sized ssidSize pwdSize) at start
    simp only [show (((priv.withByte ssidLenOffset ssidSize).withByte
      pwdLenOffset pwdSize).resultByte ssidLenOffset) = ssidSize from
        sized_ssidLen priv ssidSize pwdSize] at start
    rw [Traced.within_bind, within_loadSrc] at start
    obtain ⟨ssidSource, afterLoad⟩ := start
    rw [loadSrc_apply _ _ _ ssidSource] at afterLoad
    have store := afterLoad _ rfl
    rw [Traced.within_bind, within_storeResult,
      length_srcBytes _ _ _ ssidSource] at store
    obtain ⟨ssidTarget, afterStore⟩ := store
    change _ ∨ 0 + _ ≤ 32 at ssidTarget
    have ssidFits : ssidSize.toNat ≤ 32 := by omega
    have inSsid : fieldBase .ssid + 0 +
        ((priv.sized ssidSize pwdSize).srcBytes pwdSize.toNat
          ssidSize.toNat).length ≤ resultSize := by
      rw [length_srcBytes _ _ _ ssidSource]
      change 0 + 0 + _ ≤ 99
      omega
    rw [storeResult_apply .ssid 0 _ _ inSsid] at afterStore
    have rest := afterStore _ rfl
    have behind := resultByte_withField (priv.sized ssidSize pwdSize) _ _ inSsid
      pwdLenOffset (Or.inr (by
        rw [length_srcBytes _ _ _ ssidSource]
        change 0 + 0 + _ ≤ 97
        omega))
    rw [sized_pwdLen] at behind
    rw [Traced.within_bind_returned _ _ _ _ _ _ _ (Traced.get_apply _),
      behind, Traced.within_bind, within_loadSrc] at rest
    obtain ⟨_, pwdSource, afterPwd⟩ := rest
    rw [loadSrc_apply _ _ _ pwdSource] at afterPwd
    have last := afterPwd _ rfl
    rw [within_storeResult, length_srcBytes _ _ _ pwdSource] at last
    change _ ∨ 0 + _ ≤ 64 at last
    exact ⟨ssidFits, by omega⟩
  · intro sizes
    have ssid := sizes.ssid
    have pwd := sizes.pwd
    unfold Traced.Within
    rw [copyFields_apply priv sizes]
    intro event member
    simp only [List.mem_cons, List.not_mem_nil, or_false] at member
    rcases member with load | store | load | store
    · rw [load]
      change _ = 0 ∨ (0 : Int) ≤ _ ∧ _ ≤ ((128 : Nat) : Int)
      omega
    · rw [store]
      change _ = 0 ∨ (0 : Int) ≤ 0 ∧ (0 : Int) + _ ≤ ((32 : Nat) : Int)
      omega
    · rw [load]
      change _ = 0 ∨ (0 : Int) ≤ 0 ∧ (0 : Int) + _ ≤ ((128 : Nat) : Int)
      omega
    · rw [store]
      change _ = 0 ∨ (0 : Int) ≤ 0 ∧ (0 : Int) + _ ≤ ((64 : Nat) : Int)
      omega

def plainFits (ssidSize pwdSize : Byte) : Prop :=
  ssidSize.toNat ≤ 31 ∧ pwdSize.toNat ≤ 63

theorem plainFits.sizes {ssidSize pwdSize : Byte}
    (fits : plainFits ssidSize pwdSize) : PlainSizes ssidSize pwdSize :=
  { ssid := Nat.le_succ_of_le fits.1
    pwd := Nat.le_succ_of_le fits.2 }

theorem within_decPlain (priv : Priv) (ssidSize pwdSize : Byte) :
    Traced.Within Event.inside (decPlain ssidSize pwdSize) priv ↔
      plainFits ssidSize pwdSize := by
  have ends : ∀ sizes : PlainSizes ssidSize pwdSize,
      Traced.Within Event.inside terminate (priv.copied sizes) ↔
        plainFits ssidSize pwdSize := by
    intro sizes
    rw [within_terminate]
    unfold Priv.room plainFits
    rw [copied_pwdLen, copied_ssidLen]
    exact And.comm
  unfold decPlain
  rw [Traced.within_bind, within_copyFields]
  constructor
  · intro both
    obtain ⟨sizes, later⟩ := both
    rw [copyFields_apply priv sizes] at later
    exact (ends sizes).mp (later () rfl)
  · intro fits
    refine ⟨fits.sizes, ?_⟩
    intro value _
    rw [copyFields_apply priv fits.sizes]
    exact (ends fits.sizes).mpr fits

/-! ### Padding -/

def paddingByte (temp : List Byte) (size back : Nat) : Nat :=
  (temp.getD (size - 1 - back) 0).toNat

def paddingInside (temp : List Byte) (size dlen : Nat) : Prop :=
  dlen ≤ size ∨ ∃ back < size, paddingByte temp size back ≠ dlen

def paddingRight (temp : List Byte) (size dlen : Nat) : Prop :=
  ∀ back < dlen, back < size ∧ paddingByte temp size back = dlen

section Padding

variable (region : Region) (temp : List Byte) (size dlen : Nat)

theorem checkPadding_succ (left done : Nat) (priv : Priv) (front : done < size) :
    checkPadding region temp size dlen (left + 1) done priv =
      if paddingByte temp size done ≠ dlen then
        { value := some false, state := priv
          events := [.load region ((size : Int) - 1 - done) 1] }
      else
        let rest := checkPadding region temp size dlen left (done + 1) priv
        { rest with
          events := .load region ((size : Int) - 1 - done) 1 :: rest.events } := by
  rw [checkPadding, Traced.emit_bind_apply, Traced.ite_apply, if_pos front,
    Traced.ite_apply]
  unfold paddingByte
  split
  · rfl
  · rfl

theorem within_checkPadding_from (fits : size ≤ region.size) (left done : Nat)
    (front : done ≤ size) (priv : Priv) :
    Traced.Within Event.inside (checkPadding region temp size dlen left done)
        priv ↔
      left + done ≤ size ∨
        ∃ back, done ≤ back ∧ back < size ∧ paddingByte temp size back ≠ dlen := by
  induction left generalizing done with
  | zero =>
      apply iff_of_true (Traced.within_pure _ _ _)
      left
      omega
  | succ left ih =>
      rcases Nat.lt_or_eq_of_le front with inside | outside
      · have here : Event.inside (.load region ((size : Int) - 1 - done) 1) := by
          right
          omega
        unfold Traced.Within
        rw [checkPadding_succ _ _ _ _ _ _ _ inside]
        by_cases stops : paddingByte temp size done ≠ dlen
        · rw [if_pos stops]
          apply iff_of_true
          · intro event member
            rw [List.mem_singleton.mp member]
            exact here
          · exact Or.inr ⟨done, le_rfl, inside, stops⟩
        · rw [if_neg stops]
          have rest := ih (done + 1) inside
          unfold Traced.Within at rest
          simp only [List.mem_cons, forall_eq_or_imp]
          rw [and_iff_right here, rest]
          apply or_congr
          · omega
          · constructor
            · intro later
              obtain ⟨back, behind, below, differs⟩ := later
              exact ⟨back, by omega, below, differs⟩
            · intro some
              obtain ⟨back, behind, below, differs⟩ := some
              refine ⟨back, ?_, below, differs⟩
              rcases Nat.lt_or_eq_of_le behind with later | same
              · exact later
              · rw [← same] at differs
                exact absurd differs stops
      · apply iff_of_false
        · intro within
          have first := within (.load region ((size : Int) - 1 - done) 1) (by
            rw [checkPadding, Traced.emit_bind_apply]
            exact List.mem_cons_self)
          change 1 = 0 ∨ (0 : Int) ≤ _ ∧ _ at first
          omega
        · intro either
          rcases either with short | some
          · omega
          · obtain ⟨back, behind, below, _⟩ := some
            omega

theorem within_checkPadding (fits : size ≤ region.size) (priv : Priv) :
    Traced.Within Event.inside (checkPadding region temp size dlen dlen 0)
        priv ↔ paddingInside temp size dlen := by
  rw [within_checkPadding_from _ _ _ _ fits _ _ (Nat.zero_le _)]
  unfold paddingInside
  simp

/-- Inside the buffer the loop answers whether the padding is right. -/
theorem checkPadding_returns (left done : Nat) (priv : Priv)
    (front : done ≤ size)
    (inside : left + done ≤ size ∨
      ∃ back, done ≤ back ∧ back < size ∧ paddingByte temp size back ≠ dlen) :
    let answer := checkPadding region temp size dlen left done priv
    answer.state = priv ∧ ∃ right, answer.value = some right ∧
      (right = true ↔ ∀ back, done ≤ back → back < left + done →
        back < size ∧ paddingByte temp size back = dlen) := by
  induction left generalizing done with
  | zero =>
      refine ⟨rfl, true, rfl, iff_of_true rfl ?_⟩
      intro back behind below
      omega
  | succ left ih =>
      have here : done < size := by
        rcases inside with short | some
        · omega
        · obtain ⟨back, behind, below, _⟩ := some
          omega
      dsimp only
      rw [checkPadding_succ _ _ _ _ _ _ _ here]
      by_cases stops : paddingByte temp size done ≠ dlen
      · rw [if_pos stops]
        refine ⟨rfl, false, rfl, iff_of_false Bool.false_ne_true ?_⟩
        intro all
        exact stops (all done le_rfl (by omega)).2
      · rw [if_neg stops]
        have same : paddingByte temp size done = dlen := not_not.mp stops
        have later : left + (done + 1) ≤ size ∨
            ∃ back, done + 1 ≤ back ∧ back < size ∧
              paddingByte temp size back ≠ dlen := by
          rcases inside with short | some
          · left
            omega
          · obtain ⟨back, behind, below, differs⟩ := some
            right
            refine ⟨back, ?_, below, differs⟩
            rcases Nat.lt_or_eq_of_le behind with after | equal
            · exact after
            · rw [← equal] at differs
              exact absurd differs stops
        obtain ⟨state, right, value, answer⟩ := ih (done + 1) here later
        refine ⟨state, right, value, answer.trans ?_⟩
        constructor
        · intro all back behind below
          rcases Nat.lt_or_eq_of_le behind with after | equal
          · exact all back after (by omega)
          · rw [← equal]
            exact ⟨here, same⟩
        · intro all back behind below
          exact all back (by omega) (by omega)

end Padding

/-! ### One field of the branch with a key -/

def decryptedTemp (engine : CryptoEngine) (temp : Region) (priv : Priv)
    (offset size : Nat) : List Byte :=
  halCryptoConvey engine (priv.srcBytes offset size) ++
    List.replicate (temp.size - aesBlockSize * conveyedBlocks size) 0

def paddingLen (temp : List Byte) (size : Nat) : Nat :=
  (temp.getD (size - 1) 0).toNat

theorem temp_slack (temp : Region) (isTemp : temp = .tempPwd ∨ temp = .tempSsid)
    (blocks : Nat) (fits : aesBlockSize * blocks ≤ temp.size) :
    aesBlockSize * blocks < temp.size := by
  rcases isTemp with pwd | ssid
  · subst pwd
    change 16 * blocks ≤ 66 at fits
    change 16 * blocks < 66
    omega
  · subst ssid
    change 16 * blocks ≤ 65 at fits
    change 16 * blocks < 65
    omega

theorem size_le_blocks (size : Nat) :
    size ≤ aesBlockSize * conveyedBlocks size := by
  unfold conveyedBlocks
  change size ≤ 16 * (size / 16 + if size % 16 = 0 then 0 else 1)
  split
  · omega
  · omega

theorem length_cString_le (blocks : List Byte) (rest : Nat) :
    (cString (blocks ++ List.replicate rest 0)).length ≤ blocks.length := by
  induction blocks with
  | nil =>
      cases rest with
      | zero => exact Nat.le_refl 0
      | succ rest => exact Nat.le_refl 0
  | cons byte blocks ih =>
      unfold cString at ih ⊢
      rw [List.cons_append, List.takeWhile_cons]
      split
      · exact Nat.succ_le_succ ih
      · exact Nat.zero_le _

section Field

variable (engine : CryptoEngine) (locked : Bool) (temp field : Region)
  (lenOffset offset size : Nat) (priv : Priv)

def fieldSkipped : Prop := size = 0 ∨ locked = false

structure DecryptFits : Prop where
  blocks : aesBlockSize * conveyedBlocks size ≤ temp.size
  padding : paddingInside (decryptedTemp engine temp priv offset size) size
    (paddingLen (decryptedTemp engine temp priv offset size) size)

def fieldPadded : Prop :=
  paddingRight (decryptedTemp engine temp priv offset size) size
    (paddingLen (decryptedTemp engine temp priv offset size) size)

def fieldText : List Byte := cString (decryptedTemp engine temp priv offset size)

def fieldLen : Byte :=
  BitVec.ofInt 8 ((size : Int) -
    paddingLen (decryptedTemp engine temp priv offset size) size)

variable (isTemp : temp = .tempPwd ∨ temp = .tempSsid)
  (source : offset + size ≤ srcDataSize) (nonempty : 0 < size)

include source in
theorem blocks_length :
    (halCryptoConvey engine (priv.srcBytes offset size)).length =
      aesBlockSize * conveyedBlocks size := by
  rw [length_halCryptoConvey, length_srcBytes _ _ _ (Or.inr source)]

include isTemp source in
theorem length_fieldText
    (blocks : aesBlockSize * conveyedBlocks size ≤ temp.size) :
    (fieldText engine temp offset size priv).length < temp.size := by
  have text := length_cString_le
    (halCryptoConvey engine (priv.srcBytes offset size))
    (temp.size - aesBlockSize * conveyedBlocks size)
  have slack := temp_slack temp isTemp _ blocks
  rw [blocks_length engine offset size priv source] at text
  exact Nat.lt_of_le_of_lt text slack

def decryptTail : ScM FieldAnswer := do
  let whole := decryptedTemp engine temp priv offset size
  Traced.emit (.load temp ((size : Int) - 1) 1)
  let padded ← checkPadding temp whole size (paddingLen whole size)
    (paddingLen whole size) 0
  if padded then
    Traced.emit (.load temp 0 ((cString whole).length + 1))
    pure (.plain (BitVec.ofInt 8 ((size : Int) - paddingLen whole size))
      (cString whole))
  else pure .wrongPadding

include source in
theorem decryptField_locked :
    decryptField engine true temp offset size priv =
      if aesBlockSize * conveyedBlocks size ≤ temp.size then
        let rest := decryptTail engine temp offset size priv priv
        { rest with
          events :=
            .load .srcData offset size ::
              .store temp 0 (aesBlockSize * conveyedBlocks size) :: rest.events }
      else
        { value := none, state := priv
          events :=
            [ .load .srcData offset size,
              .store temp 0 (aesBlockSize * conveyedBlocks size) ] } := by
  have length := blocks_length engine offset size priv source
  unfold decryptField
  rw [if_pos rfl, Traced.bind_returned _ _ _ _ _ _
    (loadSrc_apply offset size priv (Or.inr source)), Traced.emit_bind_apply]
  by_cases fits : aesBlockSize * conveyedBlocks size ≤ temp.size
  · have within : 0 + (halCryptoConvey engine
        (priv.srcBytes offset size)).length ≤ temp.size := by
      rw [length, Nat.zero_add]
      exact fits
    have cells : ((Buffer.fill temp.size 0).store 0
        (halCryptoConvey engine (priv.srcBytes offset size)) within).cells =
          decryptedTemp engine temp priv offset size := by
      rw [Buffer.store_cells, List.take_zero, List.nil_append, length,
        Nat.zero_add]
      unfold Buffer.fill decryptedTemp
      rw [List.drop_replicate]
    rw [if_pos fits, dif_pos within, cells, length]
    rfl
  · have outside : ¬ 0 + (halCryptoConvey engine
        (priv.srcBytes offset size)).length ≤ temp.size := by
      rw [length, Nat.zero_add]
      exact fits
    rw [if_neg fits, dif_neg outside, length]
    rfl

include isTemp source nonempty in
theorem within_decryptTail
    (blocks : aesBlockSize * conveyedBlocks size ≤ temp.size) :
    Traced.Within Event.inside (decryptTail engine temp offset size priv) priv ↔
      paddingInside (decryptedTemp engine temp priv offset size) size
        (paddingLen (decryptedTemp engine temp priv offset size) size) := by
  have fits : size ≤ temp.size := (size_le_blocks size).trans blocks
  have last : Event.inside (.load temp ((size : Int) - 1) 1) := by
    right
    omega
  have text := length_fieldText engine temp offset size priv isTemp source blocks
  have copied : Event.inside (.load temp 0
      ((fieldText engine temp offset size priv).length + 1)) := by
    right
    omega
  unfold decryptTail
  dsimp only
  rw [Traced.within_bind_returned _ _ _ _ _ _ _ (Traced.emit_apply _ _),
    Traced.within_bind, within_checkPadding _ _ _ _ fits]
  constructor
  · intro all
    exact all.2.1
  · intro padding
    refine ⟨?_, padding, ?_⟩
    · intro event member
      rw [List.mem_singleton.mp member]
      exact last
    · intro padded _
      split
      · rw [Traced.within_bind_returned _ _ _ _ _ _ _ (Traced.emit_apply _ _)]
        refine ⟨?_, Traced.within_pure _ _ _⟩
        intro event member
        rw [List.mem_singleton.mp member]
        exact copied
      · exact Traced.within_pure _ _ _

include isTemp source nonempty in
theorem within_decryptField :
    Traced.Within Event.inside (decryptField engine locked temp offset size)
        priv ↔
      locked = false ∨ DecryptFits engine temp offset size priv := by
  cases locked with
  | false =>
      apply iff_of_true _ (Or.inl rfl)
      unfold decryptField
      exact Traced.within_pure _ _ _
  | true =>
      have load : Event.inside (.load .srcData offset size) := by
        change size = 0 ∨ (0 : Int) ≤ _ ∧ _ ≤ ((128 : Nat) : Int)
        change _ ≤ 128 at source
        omega
      have store : Event.inside
          (.store temp 0 (aesBlockSize * conveyedBlocks size)) ↔
            aesBlockSize * conveyedBlocks size ≤ temp.size := by
        change _ = 0 ∨ (0 : Int) ≤ 0 ∧ (0 : Int) + _ ≤ _ ↔ _
        omega
      have tail := within_decryptTail engine temp offset size priv isTemp source
        nonempty
      unfold Traced.Within at tail ⊢
      rw [decryptField_locked engine temp offset size priv source]
      by_cases blocks : aesBlockSize * conveyedBlocks size ≤ temp.size
      · rw [if_pos blocks]
        simp only [List.mem_cons, forall_eq_or_imp]
        rw [and_iff_right load, and_iff_right (store.mpr blocks), tail blocks]
        constructor
        · intro padding
          exact Or.inr ⟨blocks, padding⟩
        · intro either
          rcases either with impossible | fits
          · contradiction
          · exact fits.padding
      · rw [if_neg blocks]
        apply iff_of_false
        · intro all
          exact blocks (store.mp (all _ (by simp)))
        · intro either
          rcases either with impossible | fits
          · contradiction
          · exact blocks fits.blocks

include source in
/-- A decryption that stays inside returns the field, or says that its padding
is wrong. -/
theorem decryptField_returns
    (fits : DecryptFits engine temp offset size priv) :
    let answer := decryptField engine true temp offset size priv
    answer.state = priv ∧
      ((fieldPadded engine temp offset size priv ∧
          answer.value = some (.plain (fieldLen engine temp offset size priv)
            (fieldText engine temp offset size priv))) ∨
        (¬ fieldPadded engine temp offset size priv ∧
          answer.value = some .wrongPadding)) := by
  dsimp only
  rw [decryptField_locked engine temp offset size priv source,
    if_pos fits.blocks]
  have inside := fits.padding
  unfold paddingInside at inside
  obtain ⟨state, right, value, answer⟩ := checkPadding_returns temp
    (decryptedTemp engine temp priv offset size) size
    (paddingLen (decryptedTemp engine temp priv offset size) size)
    (paddingLen (decryptedTemp engine temp priv offset size) size) 0 priv
    (Nat.zero_le _) (by
      rcases inside with short | some
      · left
        omega
      · obtain ⟨back, below, differs⟩ := some
        exact Or.inr ⟨back, Nat.zero_le _, below, differs⟩)
  have padded : right = true ↔ fieldPadded engine temp offset size priv := by
    rw [answer]
    unfold fieldPadded paddingRight
    simp
  cases run : checkPadding temp (decryptedTemp engine temp priv offset size) size
      (paddingLen (decryptedTemp engine temp priv offset size) size)
      (paddingLen (decryptedTemp engine temp priv offset size) size) 0 priv with
  | mk returned after events =>
      rw [run] at state value
      dsimp only at state value
      subst state value
      unfold decryptTail
      dsimp only
      rw [Traced.emit_bind_apply, Traced.bind_returned _ _ _ _ _ _ run]
      cases right with
      | true => exact ⟨rfl, Or.inl ⟨padded.mp rfl, rfl⟩⟩
      | false =>
          exact ⟨rfl, Or.inr ⟨fun right => Bool.noConfusion (padded.mpr right),
            rfl⟩⟩

def fieldFits : Prop :=
  fieldSkipped locked size ∨
    (DecryptFits engine temp offset size priv ∧
      (fieldPadded engine temp offset size priv →
        (fieldText engine temp offset size priv).length ≤ field.size))

def fieldPassed : Prop :=
  fieldSkipped locked size ∨ fieldPadded engine temp offset size priv

/-- The length of the field in `result` behind it. -/
def fieldLenAfter : Byte :=
  if size = 0 ∨ locked = false then priv.resultByte lenOffset
  else fieldLen engine temp offset size priv

/-- The field copied into `result`. -/
def copyText (len : Byte) (text : List Byte) : ScM Bool := do
  setResultByte lenOffset len
  storeResult field 0 text
  pure true

theorem within_copyText (len : Byte) (text : List Byte) :
    Traced.Within Event.inside (copyText field lenOffset len text) priv ↔
      text.length ≤ field.size := by
  unfold copyText
  rw [Traced.within_bind_returned _ _ _ _ _ _ _ (setResultByte_apply _ _ _),
    Traced.within_bind, within_storeResult]
  constructor
  · intro all
    have stored := all.2.1
    omega
  · intro fits
    refine ⟨?_, Or.inr (by omega), ?_⟩
    · intro event member
      cases member
    · intro _ _
      exact Traced.within_pure _ _ _

theorem decField_nonempty (nonempty : size ≠ 0) :
    decField engine locked temp field lenOffset offset size =
      (do
        let answer ← decryptField engine locked temp offset size
        match answer with
        | .unavailable => pure true
        | .wrongPadding => pure false
        | .plain len text => copyText field lenOffset len text) := by
  unfold decField
  rw [if_neg nonempty]
  rfl

structure FieldAfter (after : Priv) : Prop where
  src : after.srcDataBuff = priv.srcDataBuff
  len : after.resultByte lenOffset =
    fieldLenAfter engine locked temp lenOffset offset size priv
  others : ∀ other, 96 ≤ other → lenOffset ≠ other →
    after.resultByte other = priv.resultByte other

theorem FieldAfter.skipped (skip : fieldSkipped locked size) :
    FieldAfter engine locked temp lenOffset offset size priv priv :=
  { src := rfl
    len := (if_pos skip).symm
    others := fun _ _ _ => rfl }

theorem copyText_returns (isField : field = .pwd ∨ field = .ssid) (len : Byte)
    (text : List Byte) (fits : text.length ≤ field.size)
    (isLen : lenOffset = pwdLenOffset ∨ lenOffset = ssidLenOffset) :
    let done := copyText field lenOffset len text priv
    done.value = some true ∧ done.state.srcDataBuff = priv.srcDataBuff ∧
      done.state.resultByte lenOffset = len ∧
      ∀ other, 96 ≤ other → lenOffset ≠ other →
        done.state.resultByte other = priv.resultByte other := by
  have room : fieldBase field + 0 + text.length ≤ 96 := by
    rcases isField with pwd | ssid
    · subst pwd
      change _ ≤ 64 at fits
      change 32 + 0 + _ ≤ 96
      omega
    · subst ssid
      change _ ≤ 32 at fits
      change 0 + 0 + _ ≤ 96
      omega
  have within : fieldBase field + 0 + text.length ≤ resultSize :=
    room.trans (by decide)
  have bounds : 96 ≤ lenOffset ∧ lenOffset < resultSize := by
    rcases isLen with pwd | ssid
    · rw [pwd]
      decide
    · rw [ssid]
      decide
  dsimp only
  unfold copyText
  rw [Traced.bind_returned _ _ _ _ _ _ (setResultByte_apply _ _ _),
    Traced.bind_returned _ _ _ _ _ _ (storeResult_apply field 0 text _ within)]
  refine ⟨rfl, rfl, ?_, ?_⟩
  · exact (resultByte_withField _ _ _ within lenOffset
      (Or.inr (room.trans bounds.1))).trans
      (resultByte_withByte priv lenOffset len bounds.2)
  · intro other behind differs
    exact (resultByte_withField _ _ _ within other
      (Or.inr (room.trans behind))).trans
      (resultByte_withByte_other priv lenOffset other len differs)

variable (fieldSource : size = 0 ∨ offset + size ≤ srcDataSize)
  (isField : field = .pwd ∨ field = .ssid)
  (isLen : lenOffset = pwdLenOffset ∨ lenOffset = ssidLenOffset)

include isTemp fieldSource in
theorem within_decField :
    Traced.Within Event.inside
        (decField engine locked temp field lenOffset offset size) priv ↔
      fieldFits engine locked temp field offset size priv := by
  unfold fieldFits fieldSkipped
  by_cases empty : size = 0
  · apply iff_of_true _ (Or.inl (Or.inl empty))
    unfold decField
    rw [if_pos empty]
    exact Traced.within_pure _ _ _
  · have source : offset + size ≤ srcDataSize := fieldSource.resolve_left empty
    rw [decField_nonempty engine locked temp field lenOffset offset size empty,
      Traced.within_bind, within_decryptField engine locked temp offset size priv
        isTemp source (Nat.pos_of_ne_zero empty)]
    cases locked with
    | false =>
        apply iff_of_true _ (Or.inl (Or.inr rfl))
        refine ⟨Or.inl rfl, ?_⟩
        intro answer same
        cases same
        exact Traced.within_pure _ _ _
    | true =>
        constructor
        · intro both
          obtain ⟨either, later⟩ := both
          have fits := either.resolve_left Bool.true_eq_false.mp
          refine Or.inr ⟨fits, ?_⟩
          intro padded
          obtain ⟨state, answer⟩ := decryptField_returns engine temp offset size
            priv source fits
          rcases answer with right | wrong
          · have copied := later _ right.2
            rw [state] at copied
            exact (within_copyText field lenOffset priv _ _).mp copied
          · exact absurd padded wrong.1
        · intro either
          rcases either with skipped | fits
          · rcases skipped with none | impossible
            · exact absurd none empty
            · contradiction
          · refine ⟨Or.inr fits.1, ?_⟩
            obtain ⟨state, answer⟩ := decryptField_returns engine temp offset
              size priv source fits.1
            rw [state]
            intro value returned
            rcases answer with right | wrong
            · rw [right.2] at returned
              cases returned
              exact (within_copyText field lenOffset priv _ _).mpr
                (fits.2 right.1)
            · rw [wrong.2] at returned
              cases returned
              exact Traced.within_pure _ _ _

include fieldSource isField isLen in
theorem decField_returns
    (fits : fieldFits engine locked temp field offset size priv) :
    let done := decField engine locked temp field lenOffset offset size priv
    (fieldPassed engine locked temp offset size priv ∧ done.value = some true ∧
        FieldAfter engine locked temp lenOffset offset size priv done.state) ∨
      (¬ fieldPassed engine locked temp offset size priv ∧
        done.value = some false) := by
  dsimp only
  by_cases empty : size = 0
  · left
    have skip : fieldSkipped locked size := Or.inl empty
    unfold decField
    rw [if_pos empty]
    exact ⟨Or.inl skip, rfl, FieldAfter.skipped _ _ _ _ _ _ _ skip⟩
  · have source : offset + size ≤ srcDataSize := fieldSource.resolve_left empty
    rw [decField_nonempty engine locked temp field lenOffset offset size empty]
    cases locked with
    | false =>
        left
        have skip : fieldSkipped false size := Or.inr rfl
        exact ⟨Or.inl skip, rfl, FieldAfter.skipped _ _ _ _ _ _ _ skip⟩
    | true =>
        have unskipped : ¬ fieldSkipped true size := by
          intro skip
          rcases skip with none | impossible
          · exact empty none
          · contradiction
        have inside := Or.resolve_left fits unskipped
        obtain ⟨state, answer⟩ := decryptField_returns engine temp offset size
          priv source inside.1
        cases run : decryptField engine true temp offset size priv with
        | mk returned after events =>
            rw [run] at state answer
            dsimp only at state answer
            subst state
            rcases answer with right | wrong
            · left
              rw [right.2] at run
              rw [Traced.bind_returned _ _ _ _ _ _ run]
              obtain ⟨value, src, len, others⟩ := copyText_returns field
                lenOffset after isField
                (fieldLen engine temp offset size after)
                (fieldText engine temp offset size after) (inside.2 right.1)
                isLen
              exact ⟨Or.inr right.1, value,
                { src := src
                  len := len.trans (if_neg unskipped).symm
                  others := others }⟩
            · right
              rw [wrong.2] at run
              rw [Traced.bind_returned _ _ _ _ _ _ run]
              refine ⟨?_, rfl⟩
              intro passed
              rcases passed with skip | padded
              · exact unskipped skip
              · exact wrong.1 padded

end Field

/-! ### The branch with a key -/

section Aes

variable (engine : CryptoEngine) (ssidSize pwdSize : Byte) (priv : Priv)

def pwdFits : Prop :=
  fieldFits engine engine.pwdLocked .tempPwd .pwd 0 pwdSize.toNat priv

def pwdPassed : Prop :=
  fieldPassed engine engine.pwdLocked .tempPwd 0 pwdSize.toNat priv

def ssidFits : Prop :=
  fieldFits engine engine.ssidLocked .tempSsid .ssid pwdSize.toNat
    ssidSize.toNat priv

def ssidPassed : Prop :=
  fieldPassed engine engine.ssidLocked .tempSsid pwdSize.toNat ssidSize.toNat
    priv

/-- The lengths in `result` behind both fields leave room for the
terminators. -/
def lensFit : Prop :=
  (fieldLenAfter engine engine.pwdLocked .tempPwd pwdLenOffset 0 pwdSize.toNat
      priv).toNat ≤ 63 ∧
    (fieldLenAfter engine engine.ssidLocked .tempSsid ssidLenOffset
      pwdSize.toNat ssidSize.toNat priv).toNat ≤ 31

def aesFits : Prop :=
  (66 ≤ pwdSize.toNat ∨ 65 ≤ ssidSize.toNat) ∨
    (pwdFits engine pwdSize priv ∧
      (pwdPassed engine pwdSize priv →
        ssidFits engine ssidSize pwdSize priv ∧
          (ssidPassed engine ssidSize pwdSize priv →
            lensFit engine ssidSize pwdSize priv)))

/-- The ssid's branch looks at nothing the passphrase's changes, its own length
apart. -/
theorem fieldLenAfter_congr (locked : Bool) (temp : Region)
    (lenOffset offset size : Nat) (after : Priv)
    (src : after.srcDataBuff = priv.srcDataBuff)
    (len : after.resultByte lenOffset = priv.resultByte lenOffset) :
    fieldLenAfter engine locked temp lenOffset offset size after =
      fieldLenAfter engine locked temp lenOffset offset size priv := by
  unfold fieldLenAfter fieldLen decryptedTemp Priv.srcBytes
  rw [src, len]

theorem ssidFits_congr (after : Priv)
    (src : after.srcDataBuff = priv.srcDataBuff) :
    ssidFits engine ssidSize pwdSize after ↔
      ssidFits engine ssidSize pwdSize priv := by
  have bytes : ∀ offset size,
      after.srcBytes offset size = priv.srcBytes offset size := by
    intro offset size
    unfold Priv.srcBytes
    rw [src]
  have temp : decryptedTemp engine .tempSsid after pwdSize.toNat ssidSize.toNat =
      decryptedTemp engine .tempSsid priv pwdSize.toNat ssidSize.toNat := by
    unfold decryptedTemp
    rw [bytes]
  unfold ssidFits fieldFits fieldPadded fieldText
  rw [temp]
  apply or_congr_right
  apply and_congr_left
  intro _
  constructor
  · intro fits
    exact ⟨fits.blocks, temp ▸ fits.padding⟩
  · intro fits
    exact ⟨fits.blocks, temp ▸ fits.padding⟩

theorem ssidPassed_congr (after : Priv)
    (src : after.srcDataBuff = priv.srcDataBuff) :
    ssidPassed engine ssidSize pwdSize after ↔
      ssidPassed engine ssidSize pwdSize priv := by
  unfold ssidPassed fieldPassed fieldPadded decryptedTemp Priv.srcBytes
  rw [src]

variable (source : pwdSize.toNat < 66 → ssidSize.toNat < 65 →
  pwdSize.toNat + ssidSize.toNat ≤ srcDataSize)

include source in
theorem within_decAes :
    Traced.Within Event.inside (decAes engine ssidSize pwdSize) priv ↔
      aesFits engine ssidSize pwdSize priv := by
  unfold decAes aesFits
  by_cases refused : 66 ≤ pwdSize.toNat ∨ 65 ≤ ssidSize.toNat
  · rw [if_pos refused]
    exact iff_of_true (Traced.within_pure _ _ _) (Or.inl refused)
  · rw [if_neg refused]
    have total := source (by omega) (by omega)
    have pwdSource : pwdSize.toNat = 0 ∨ 0 + pwdSize.toNat ≤ srcDataSize := by
      right
      omega
    have pwdWithin := within_decField engine engine.pwdLocked .tempPwd .pwd
      pwdLenOffset 0 pwdSize.toNat priv (Or.inl rfl) pwdSource
    rw [Traced.within_bind, pwdWithin, or_iff_right refused]
    apply and_congr_right
    intro fits
    rcases decField_returns engine engine.pwdLocked .tempPwd .pwd pwdLenOffset 0
      pwdSize.toNat priv pwdSource (Or.inl rfl) (Or.inl rfl) fits with
      passed | failed
    · obtain ⟨passes, value, pwdAfter⟩ := passed
      have ssidWithin := within_decField engine engine.ssidLocked .tempSsid .ssid
        ssidLenOffset pwdSize.toNat ssidSize.toNat
        (decField engine engine.pwdLocked .tempPwd .pwd pwdLenOffset 0
          pwdSize.toNat priv).state (Or.inr rfl) (Or.inr total)
      rw [value]
      rw [forall_prop_of_true (show pwdPassed engine pwdSize priv from passes)]
      have once : ∀ rest : Bool → Prop,
          (∀ answer, some true = some answer → rest answer) ↔ rest true := by
        intro rest
        constructor
        · intro all
          exact all true rfl
        · intro this answer same
          cases same
          exact this
      rw [once, if_pos rfl, Traced.within_bind, ssidWithin]
      have same := ssidFits_congr engine ssidSize pwdSize priv _ pwdAfter.src
      unfold ssidFits at same
      rw [same]
      apply and_congr_right
      intro ssidInside
      rcases decField_returns engine engine.ssidLocked .tempSsid .ssid
        ssidLenOffset pwdSize.toNat ssidSize.toNat _ (Or.inr total)
        (Or.inr rfl) (Or.inr rfl) (same.mpr ssidInside) with done | stopped
      · obtain ⟨ssidPasses, ssidValue, ssidAfter⟩ := done
        have passes' := (ssidPassed_congr engine ssidSize pwdSize priv _
          pwdAfter.src).mp ssidPasses
        rw [ssidValue, once, if_pos rfl, Traced.within_bind, within_terminate]
        rw [forall_prop_of_true
          (show ssidPassed engine ssidSize pwdSize priv from passes')]
        have pwdLen := (ssidAfter.others pwdLenOffset (by decide)
          (by decide)).trans pwdAfter.len
        have ssidLen := ssidAfter.len.trans (fieldLenAfter_congr engine priv
          engine.ssidLocked .tempSsid ssidLenOffset pwdSize.toNat ssidSize.toNat
          _ pwdAfter.src (pwdAfter.others ssidLenOffset (by decide) (by decide)))
        unfold Priv.room lensFit
        rw [pwdLen, ssidLen]
        apply and_iff_left
        intro _ _
        exact Traced.within_pure _ _ _
      · have fails : ¬ ssidPassed engine ssidSize pwdSize priv := fun passes =>
          stopped.1 ((ssidPassed_congr engine ssidSize pwdSize priv _
            pwdAfter.src).mpr passes)
        rw [stopped.2]
        apply iff_of_true
        · intro answer same
          cases same
          exact Traced.within_pure _ _ _
        · intro passes
          exact absurd passes fails
    · rw [failed.2]
      apply iff_of_true
      · intro answer same
        cases same
        exact Traced.within_pure _ _ _
      · intro passes
        exact absurd passes failed.1

end Aes

end XR872.SmartConfig
