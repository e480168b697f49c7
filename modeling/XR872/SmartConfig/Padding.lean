/-
The padding check of `dec_data_decode`.

The loop runs as often as the last byte says, without a look at the size, and a
last byte of zero passes it. What is then copied ends at the first zero of the
temporary buffer and not at the unpadded length: padding bytes are not zero, so
they are always copied with a text that has none, and a text with a zero is cut
short. The two ways to compare the copied text with the plaintext share one
statement.
-/

import XR872.SmartConfig.Bounds

namespace XR872.SmartConfig

open BitView
open Buffers
open Traces

/-! ### Padding -/

structure ValidPadding (whole : List Byte) (size : Nat) : Prop where
  positive : 1 ≤ paddingLen whole size
  inside : paddingLen whole size ≤ size
  block : paddingLen whole size ≤ aesBlockSize
  same : ∀ back < paddingLen whole size,
    paddingByte whole size back = paddingLen whole size

/-- A byte of the field, among as many last ones as the last byte says, is
another one. -/
def BrokenPadding (whole : List Byte) (size : Nat) : Prop :=
  ∃ back < paddingLen whole size, back < size ∧
    paddingByte whole size back ≠ paddingLen whole size

def unpadded (whole : List Byte) (size : Nat) : List Byte :=
  whole.take (size - paddingLen whole size)

theorem BrokenPadding.not_valid {whole : List Byte} {size : Nat}
    (broken : BrokenPadding whole size) : ¬ ValidPadding whole size := by
  obtain ⟨back, below, _, differs⟩ := broken
  intro valid
  exact differs (valid.same back below)

theorem ValidPadding.seam {whole : List Byte} {size : Nat}
    (valid : ValidPadding whole size) (long : size ≤ whole.length) :
    ∃ byte rest, whole = unpadded whole size ++ byte :: rest ∧ byte ≠ 0 := by
  have positive := valid.positive
  have inside := valid.inside
  have below : size - paddingLen whole size < whole.length := by omega
  have first := valid.same (paddingLen whole size - 1) (by omega)
  have place : size - 1 - (paddingLen whole size - 1) =
      size - paddingLen whole size := by omega
  refine ⟨whole[size - paddingLen whole size],
    whole.drop (size - paddingLen whole size + 1), ?_, ?_⟩
  · unfold unpadded
    rw [← List.drop_eq_getElem_cons below, List.take_append_drop]
  · intro zero
    unfold paddingByte at first
    rw [place, List.getD_eq_getElem?_getD, List.getElem?_eq_getElem below,
      Option.getD_some, zero] at first
    change 0 = _ at first
    omega

/-! ### What is copied -/

theorem cString_append_nonzero (text rest : List Byte) (byte : Byte)
    (nonzero : byte ≠ 0) (plain : (0 : Byte) ∉ text) :
    cString (text ++ byte :: rest) = text ++ byte :: cString rest := by
  induction text with
  | nil =>
      unfold cString
      rw [List.nil_append, List.takeWhile_cons, if_pos (by simpa using nonzero)]
      rfl
  | cons first text ih =>
      have firstNonzero : first ≠ 0 := by
        intro zero
        exact plain (zero ▸ List.mem_cons_self)
      have later := ih fun member => plain (List.mem_cons_of_mem first member)
      unfold cString at later ⊢
      rw [List.cons_append, List.takeWhile_cons,
        if_pos (by simpa using firstNonzero), later]
      rfl

theorem zero_not_mem_cString (bytes : List Byte) : (0 : Byte) ∉ cString bytes := by
  induction bytes with
  | nil => exact List.not_mem_nil
  | cons first bytes ih =>
      unfold cString at ih ⊢
      rw [List.takeWhile_cons]
      split
      · rename_i kept
        intro member
        rcases List.mem_cons.mp member with zero | later
        · rw [← zero] at kept
          simp at kept
        · exact ih later
      · exact List.not_mem_nil

theorem ValidPadding.copies_more {whole : List Byte} {size : Nat}
    (valid : ValidPadding whole size) (long : size ≤ whole.length) :
    cString whole ≠ unpadded whole size := by
  obtain ⟨byte, rest, split, nonzero⟩ := valid.seam long
  intro same
  have plain : (0 : Byte) ∉ unpadded whole size := by
    rw [← same]
    exact zero_not_mem_cString whole
  have longer : (cString whole).length =
      (unpadded whole size ++ byte :: cString rest).length := by
    conv_lhs => rw [split]
    rw [cString_append_nonzero _ _ _ nonzero plain]
  rw [same, List.length_append, List.length_cons] at longer
  omega

/-- The copied text begins with the plaintext exactly if that has no zero. -/
theorem ValidPadding.copies_text {whole : List Byte} {size : Nat}
    (valid : ValidPadding whole size) (long : size ≤ whole.length) :
    unpadded whole size <+: cString whole ↔ (0 : Byte) ∉ unpadded whole size := by
  obtain ⟨byte, rest, split, nonzero⟩ := valid.seam long
  constructor
  · intro begins zero
    exact zero_not_mem_cString whole (begins.subset zero)
  · intro plain
    have copied : cString whole =
        unpadded whole size ++ byte :: cString rest := by
      conv_lhs => rw [split]
      exact cString_append_nonzero _ _ _ nonzero plain
    rw [copied]
    exact List.prefix_append _ _

/-! ### The loop -/

section Loop

variable (region : Region) (temp : List Byte) (size dlen : Nat)

/-- A loop that finds no other byte in the field runs in front of it. -/
theorem checkPadding_stops (left done : Nat) (priv : Priv) (front : done ≤ size)
    (same : ∀ back, done ≤ back → back < size →
      paddingByte temp size back = dlen)
    (long : size < left + done) :
    (checkPadding region temp size dlen left done priv).value = none := by
  induction left generalizing done with
  | zero => omega
  | succ left ih =>
      by_cases here : done < size
      · have equal : ¬ paddingByte temp size done ≠ dlen :=
          not_not.mpr (same done le_rfl here)
        rw [checkPadding_succ _ _ _ _ _ _ _ here, if_neg equal]
        exact ih (done + 1) here
          (fun back behind below => same back (by omega) below) (by omega)
      · rw [checkPadding, Traced.emit_bind_apply, Traced.ite_apply,
          if_neg here]
        rfl

end Loop

/-! ### Events -/

def Event.storesOnly (temp : Region) : Event → Prop
  | .store region _ _ => region = temp
  | _ => True

theorem emits_loadSrc_storesOnly (temp : Region) (offset len : Nat) :
    Traced.Emits (Event.storesOnly temp) (loadSrc offset len) := by
  unfold loadSrc
  refine Traced.emits_bind _ _ (Traced.emits_emit _ trivial) fun _ => ?_
  refine Traced.emits_bind _ _ Traced.emits_get fun priv => ?_
  split
  · exact Traced.emits_pure _
  · exact Traced.emits_stop

theorem emits_checkPadding_storesOnly (temp region : Region) (whole : List Byte)
    (size dlen left done : Nat) :
    Traced.Emits (Event.storesOnly temp)
      (checkPadding region whole size dlen left done) := by
  induction left generalizing done with
  | zero => exact Traced.emits_pure true
  | succ left ih =>
      rw [checkPadding]
      refine Traced.emits_bind _ _ (Traced.emits_emit _ trivial) fun _ => ?_
      split
      · split
        · exact Traced.emits_pure false
        · exact ih (done + 1)
      · exact Traced.emits_stop

theorem emits_decryptField_storesOnly (engine : CryptoEngine) (locked : Bool)
    (temp : Region) (offset size : Nat) :
    Traced.Emits (Event.storesOnly temp)
      (decryptField engine locked temp offset size) := by
  unfold decryptField
  split
  · refine Traced.emits_bind _ _ (emits_loadSrc_storesOnly temp _ _)
      fun cipher => ?_
    refine Traced.emits_bind _ _ (Traced.emits_emit _ rfl) fun _ => ?_
    split
    · refine Traced.emits_bind _ _ (Traced.emits_emit _ trivial) fun _ => ?_
      refine Traced.emits_bind _ _
        (emits_checkPadding_storesOnly temp _ _ _ _ _ _) fun padded => ?_
      split
      · refine Traced.emits_bind _ _ (Traced.emits_emit _ trivial) fun _ => ?_
        exact Traced.emits_pure _
      · exact Traced.emits_pure _
    · exact Traced.emits_stop
  · exact Traced.emits_pure _

/-! ### One field -/

section Field

variable (engine : CryptoEngine) (temp field : Region)
  (lenOffset offset size : Nat) (priv : Priv)

def fieldRun : Outcome Priv Event Bool :=
  decField engine true temp field lenOffset offset size priv

/-- What the check of one field promises. `agrees` compares the text that is
copied with the one in front of the padding. -/
structure FieldPromise (agrees : List Byte → List Byte → Prop) : Prop where
  accepts :
    ((fieldRun engine temp field lenOffset offset size priv).value = some true ∧
        ValidPadding (decryptedTemp engine temp priv offset size) size) ∨
      ((fieldRun engine temp field lenOffset offset size priv).value =
          some false ∧
        ¬ ValidPadding (decryptedTemp engine temp priv offset size) size)
  front : ∀ place len, .load temp place len ∈
      (fieldRun engine temp field lenOffset offset size priv).events →
    len = 0 ∨ 0 ≤ place
  len : (fieldRun engine temp field lenOffset offset size priv).value =
      some true →
    (fieldRun engine temp field lenOffset offset size priv).state.resultByte
        lenOffset =
      BitVec.ofNat 8 (size -
        paddingLen (decryptedTemp engine temp priv offset size) size)
  copies : (fieldRun engine temp field lenOffset offset size priv).value =
      some true →
    ∃ len, .store field 0 len ∈
      (fieldRun engine temp field lenOffset offset size priv).events
  copied : ∀ place len, .store field place len ∈
      (fieldRun engine temp field lenOffset offset size priv).events →
    place = 0 ∧
      agrees
        ((fieldRun engine temp field lenOffset offset size
          priv).state.fieldBytes field len)
        (unpadded (decryptedTemp engine temp priv offset size) size)

variable (source : offset + size ≤ srcDataSize) (nonempty : 0 < size)
  (isTemp : temp = .tempPwd ∨ temp = .tempSsid)
  (isField : field = .pwd ∨ field = .ssid)
  (isLen : lenOffset = pwdLenOffset ∨ lenOffset = ssidLenOffset)

include source in
theorem length_decryptedTemp
    (blocks : aesBlockSize * conveyedBlocks size ≤ temp.size) :
    (decryptedTemp engine temp priv offset size).length = temp.size := by
  unfold decryptedTemp
  rw [List.length_append, List.length_replicate,
    blocks_length engine offset size priv source]
  omega

include source isTemp in
theorem length_fieldText_le
    (blocks : aesBlockSize * conveyedBlocks size ≤ temp.size) :
    (fieldText engine temp offset size priv).length ≤ 64 := by
  have text := length_cString_le
    (halCryptoConvey engine (priv.srcBytes offset size))
    (temp.size - aesBlockSize * conveyedBlocks size)
  rw [blocks_length engine offset size priv source] at text
  refine Nat.le_trans text ?_
  rcases isTemp with pwd | ssid
  · subst pwd
    change 16 * _ ≤ 66 at blocks
    change 16 * _ ≤ 64
    omega
  · subst ssid
    change 16 * _ ≤ 65 at blocks
    change 16 * _ ≤ 64
    omega

/-- The field in `result` once the text has been copied. -/
def Priv.fieldDecoded (text : List Byte) (len : Byte)
    (room : fieldBase field + 0 + text.length ≤ resultSize) : Priv :=
  (priv.withByte lenOffset len).withField (fieldBase field + 0) text room

include source nonempty in
theorem fieldRun_wrong
    (fits : DecryptFits engine temp offset size priv)
    (wrong : ¬ fieldPadded engine temp offset size priv) :
    fieldRun engine temp field lenOffset offset size priv =
      { value := some false
        state := priv
        events := (decryptField engine true temp offset size priv).events } := by
  obtain ⟨state, answer⟩ := decryptField_returns engine temp offset size priv
    source fits
  have failed := answer.resolve_left fun right => wrong right.1
  unfold fieldRun
  rw [decField_nonempty engine true temp field lenOffset offset size
    (Nat.ne_of_gt nonempty)]
  cases run : decryptField engine true temp offset size priv with
  | mk returned after events =>
      rw [run] at state failed
      dsimp only at state failed
      rw [state, failed.2] at run
      rw [Traced.bind_returned _ _ _ _ _ _ run]
      exact congrArg (Outcome.mk _ _) (List.append_nil _)

include source nonempty in
theorem fieldRun_padded
    (fits : DecryptFits engine temp offset size priv)
    (padded : fieldPadded engine temp offset size priv)
    (room : fieldBase field + 0 +
      (fieldText engine temp offset size priv).length ≤ resultSize) :
    fieldRun engine temp field lenOffset offset size priv =
      { value := some true
        state := priv.fieldDecoded field lenOffset
          (fieldText engine temp offset size priv)
          (fieldLen engine temp offset size priv) room
        events := (decryptField engine true temp offset size priv).events ++
          [.store field 0 (fieldText engine temp offset size priv).length] } := by
  obtain ⟨state, answer⟩ := decryptField_returns engine temp offset size priv
    source fits
  have passed := answer.resolve_right fun wrong => wrong.1 padded
  unfold fieldRun
  rw [decField_nonempty engine true temp field lenOffset offset size
    (Nat.ne_of_gt nonempty)]
  cases run : decryptField engine true temp offset size priv with
  | mk returned after events =>
      rw [run] at state passed
      dsimp only at state passed
      rw [state, passed.2] at run
      rw [Traced.bind_returned _ _ _ _ _ _ run]
      dsimp only
      unfold copyText
      rw [Traced.bind_returned _ _ _ _ _ _ (setResultByte_apply _ _ _),
        Traced.bind_returned _ _ _ _ _ _
          (storeResult_apply field 0 _ _ room)]
      rfl

include source nonempty in
/-- Blocks that do not fit the buffer, or a padding that is nothing but its own
length up to the front of it, are the ends of the model. -/
theorem fieldRun_stops
    (stops : ¬ aesBlockSize * conveyedBlocks size ≤ temp.size ∨
      size < paddingLen (decryptedTemp engine temp priv offset size) size ∧
        ¬ BrokenPadding (decryptedTemp engine temp priv offset size) size) :
    (fieldRun engine temp field lenOffset offset size priv).value = none := by
  have locked := decryptField_locked engine temp offset size priv source
  have stopped :
      (decryptField engine true temp offset size priv).value = none := by
    rw [locked]
    by_cases blocks : aesBlockSize * conveyedBlocks size ≤ temp.size
    · obtain ⟨long, whole⟩ := stops.resolve_left (not_not.mpr blocks)
      have same : ∀ back, 0 ≤ back → back < size →
          paddingByte (decryptedTemp engine temp priv offset size) size back =
            paddingLen (decryptedTemp engine temp priv offset size) size := by
        intro back _ below
        by_contra differs
        exact whole ⟨back, by omega, below, differs⟩
      have loop := checkPadding_stops temp
        (decryptedTemp engine temp priv offset size) size
        (paddingLen (decryptedTemp engine temp priv offset size) size)
        (paddingLen (decryptedTemp engine temp priv offset size) size) 0 priv
        (Nat.zero_le _) same (by omega)
      rw [if_pos blocks]
      unfold decryptTail
      dsimp only
      rw [Traced.emit_bind_apply, Traced.bind_apply, loop]
    · rw [if_neg blocks]
  unfold fieldRun
  rw [decField_nonempty engine true temp field lenOffset offset size
    (Nat.ne_of_gt nonempty), Traced.bind_apply, stopped]

include source nonempty isTemp in
theorem decryptField_front (fits : DecryptFits engine temp offset size priv)
    (place : Int) (len : Nat)
    (loaded : .load temp place len ∈
      (decryptField engine true temp offset size priv).events) :
    len = 0 ∨ 0 ≤ place := by
  have within := (within_decryptField engine true temp offset size priv isTemp
    source nonempty).mpr (Or.inr fits)
  have inside : Event.inside (.load temp place len) := within _ loaded
  rcases inside with nothing | bounds
  · exact Or.inl nothing
  · exact Or.inr bounds.1

include isTemp isField in
theorem decryptField_storesElsewhere (place : Int) (len : Nat) :
    .store field place len ∉
      (decryptField engine true temp offset size priv).events := by
  intro stored
  have same : field = temp :=
    emits_decryptField_storesOnly engine true temp offset size priv _ stored
  rcases isField with pwd | ssid
  · rcases isTemp with tempPwd | tempSsid
    · rw [pwd, tempPwd] at same
      cases same
    · rw [pwd, tempSsid] at same
      cases same
  · rcases isTemp with tempPwd | tempSsid
    · rw [ssid, tempPwd] at same
      cases same
    · rw [ssid, tempSsid] at same
      cases same

theorem fieldBytes_fieldDecoded (text : List Byte) (len : Byte)
    (room : fieldBase field + 0 + text.length ≤ resultSize) :
    (priv.fieldDecoded field lenOffset text len room).fieldBytes field text.length =
      text := by
  have size := (priv.withByte lenOffset len).result.size
  have before : ((priv.withByte lenOffset len).result.cells.take
      (fieldBase field + 0)).length = fieldBase field := by
    rw [List.length_take, size]
    omega
  unfold Priv.fieldDecoded Priv.withField Priv.fieldBytes
  dsimp only
  rw [Buffer.store_cells, List.drop_left' before,
    List.take_left]

include source nonempty in
theorem fieldRun_broken
    (blocks : aesBlockSize * conveyedBlocks size ≤ temp.size)
    (broken : BrokenPadding (decryptedTemp engine temp priv offset size) size) :
    DecryptFits engine temp offset size priv ∧
      fieldRun engine temp field lenOffset offset size priv =
        { value := some false
          state := priv
          events := (decryptField engine true temp offset size priv).events } := by
  obtain ⟨back, below, inside, differs⟩ := broken
  have fits : DecryptFits engine temp offset size priv :=
    { blocks := blocks
      padding := Or.inr ⟨back, inside, differs⟩ }
  exact ⟨fits, fieldRun_wrong engine temp field lenOffset offset size priv
    source nonempty fits fun padded => differs (padded back below).2⟩

include source nonempty isTemp isField in
/-- A padding that is its length over and over, and no longer than the field,
passes. -/
theorem fieldRun_whole
    (blocks : aesBlockSize * conveyedBlocks size ≤ temp.size)
    (inside : paddingLen (decryptedTemp engine temp priv offset size) size ≤
      size)
    (whole : ¬ BrokenPadding (decryptedTemp engine temp priv offset size)
      size) :
    DecryptFits engine temp offset size priv ∧
      ∃ end96 : fieldBase field + 0 +
          (fieldText engine temp offset size priv).length ≤ 96,
        fieldRun engine temp field lenOffset offset size priv =
          { value := some true
            state := priv.fieldDecoded field lenOffset
              (fieldText engine temp offset size priv)
              (fieldLen engine temp offset size priv)
              (end96.trans (by decide))
            events :=
              (decryptField engine true temp offset size priv).events ++
                [.store field 0
                  (fieldText engine temp offset size priv).length] } := by
  have fits : DecryptFits engine temp offset size priv :=
    { blocks := blocks
      padding := Or.inl inside }
  have text := length_fieldText_le engine temp offset size priv source isTemp
    blocks
  have end96 : fieldBase field + 0 +
      (fieldText engine temp offset size priv).length ≤ 96 := by
    rcases isField with pwd | ssid
    · rw [pwd]
      change 32 + 0 + _ ≤ 96
      omega
    · rw [ssid]
      change 0 + 0 + _ ≤ 96
      omega
  refine ⟨fits, end96, fieldRun_padded engine temp field lenOffset offset size
    priv source nonempty fits ?_ _⟩
  intro back below
  refine ⟨by omega, ?_⟩
  by_contra differs
  exact whole ⟨back, below, by omega, differs⟩

include source nonempty isTemp isField in
theorem fieldPromise_broken (agrees : List Byte → List Byte → Prop)
    (blocks : aesBlockSize * conveyedBlocks size ≤ temp.size)
    (broken : BrokenPadding (decryptedTemp engine temp priv offset size) size) :
    FieldPromise engine temp field lenOffset offset size priv agrees := by
  obtain ⟨fits, run⟩ := fieldRun_broken engine temp field lenOffset offset size
    priv source nonempty blocks broken
  have elsewhere := decryptField_storesElsewhere engine temp field offset size
    priv isTemp isField
  exact {
    accepts := by
      rw [run]
      exact Or.inr ⟨rfl, broken.not_valid⟩
    front := by
      rw [run]
      exact decryptField_front engine temp offset size priv source nonempty
        isTemp fits
    len := by
      rw [run]
      nofun
    copies := by
      rw [run]
      nofun
    copied := by
      rw [run]
      intro place len stored
      exact absurd stored (elsewhere place len) }

include source nonempty isTemp isField isLen in
/-- A field that passes was promised exactly if its padding is valid and the
copied text agrees. -/
theorem fieldPromise_whole (agrees : List Byte → List Byte → Prop)
    (blocks : aesBlockSize * conveyedBlocks size ≤ temp.size)
    (inside : paddingLen (decryptedTemp engine temp priv offset size) size ≤
      size)
    (whole : ¬ BrokenPadding (decryptedTemp engine temp priv offset size)
      size) :
    FieldPromise engine temp field lenOffset offset size priv agrees ↔
      ValidPadding (decryptedTemp engine temp priv offset size) size ∧
        agrees (fieldText engine temp offset size priv)
          (unpadded (decryptedTemp engine temp priv offset size) size) := by
  obtain ⟨fits, end96, run⟩ := fieldRun_whole engine temp field lenOffset offset
    size priv source nonempty isTemp isField blocks inside whole
  have elsewhere := decryptField_storesElsewhere engine temp field offset size
    priv isTemp isField
  have copied := fieldBytes_fieldDecoded field lenOffset priv
    (fieldText engine temp offset size priv)
    (fieldLen engine temp offset size priv) (end96.trans (by decide))
  constructor
  · intro promise
    have passed := promise.accepts.resolve_right fun failed => by
      rw [run] at failed
      cases failed.1
    refine ⟨passed.2, ?_⟩
    have agree := (promise.copied 0
      (fieldText engine temp offset size priv).length (by
        rw [run]
        exact List.mem_append_right _ (List.mem_singleton_self _))).2
    rw [run] at agree
    dsimp only at agree
    rw [copied] at agree
    exact agree
  · rintro ⟨valid, agree⟩
    exact {
      accepts := by
        rw [run]
        exact Or.inl ⟨rfl, valid⟩
      front := by
        rw [run]
        intro place len loaded
        rcases List.mem_append.mp loaded with early | late
        · exact decryptField_front engine temp offset size priv source
            nonempty isTemp fits place len early
        · cases List.mem_singleton.mp late
      len := by
        intro _
        have bounds : 96 ≤ lenOffset ∧ lenOffset < resultSize := by
          rcases isLen with pwd | ssid
          · rw [pwd]
            decide
          · rw [ssid]
            decide
        rw [run]
        refine (resultByte_withField _ _ _ (end96.trans (by decide)) lenOffset
          (Or.inr (end96.trans bounds.1))).trans ?_
        rw [resultByte_withByte _ _ _ bounds.2]
        unfold fieldLen
        rw [← Nat.cast_sub inside]
        exact BitVec.ofInt_natCast _ _
      copies := by
        intro _
        rw [run]
        exact ⟨_, List.mem_append_right _ (List.mem_singleton_self _)⟩
      copied := by
        rw [run]
        intro place len stored
        rcases List.mem_append.mp stored with early | late
        · exact absurd early (elsewhere place len)
        · cases List.mem_singleton.mp late
          dsimp only
          rw [copied]
          exact ⟨rfl, agree⟩ }

include source nonempty isTemp isField isLen in
/-- The check keeps its promise on a field exactly if the engine's blocks fit
the buffer and the padding is either broken inside the field, or valid with a
copied text that agrees. -/
theorem fieldPromise_iff (agrees : List Byte → List Byte → Prop) :
    FieldPromise engine temp field lenOffset offset size priv agrees ↔
      aesBlockSize * conveyedBlocks size ≤ temp.size ∧
        (BrokenPadding (decryptedTemp engine temp priv offset size) size ∨
          ValidPadding (decryptedTemp engine temp priv offset size) size ∧
            agrees (fieldText engine temp offset size priv)
              (unpadded (decryptedTemp engine temp priv offset size) size)) := by
  by_cases stops : ¬ aesBlockSize * conveyedBlocks size ≤ temp.size ∨
      size < paddingLen (decryptedTemp engine temp priv offset size) size ∧
        ¬ BrokenPadding (decryptedTemp engine temp priv offset size) size
  · have stopped := fieldRun_stops engine temp field lenOffset offset size priv
      source nonempty stops
    apply iff_of_false
    · intro promise
      rcases promise.accepts with passed | failed
      · rw [stopped] at passed
        cases passed.1
      · rw [stopped] at failed
        cases failed.1
    · rintro ⟨blocks, either⟩
      obtain ⟨long, whole⟩ := stops.resolve_left (not_not.mpr blocks)
      rcases either with broken | valid
      · exact whole broken
      · have inside := valid.1.inside
        omega
  · obtain ⟨blocks, short⟩ := not_or.mp stops
    have blocks := not_not.mp blocks
    rw [and_iff_right blocks]
    by_cases broken :
        BrokenPadding (decryptedTemp engine temp priv offset size) size
    · exact iff_of_true
        (fieldPromise_broken engine temp field lenOffset offset size priv
          source nonempty isTemp isField agrees blocks broken)
        (Or.inl broken)
    · have inside : paddingLen (decryptedTemp engine temp priv offset size)
          size ≤ size := by
        by_contra long
        exact short ⟨by omega, broken⟩
      rw [or_iff_right broken]
      exact fieldPromise_whole engine temp field lenOffset offset size priv
        source nonempty isTemp isField isLen agrees blocks inside broken

include source nonempty isTemp isField in
/-- Behind a field that passes, its padding was not broken and what was
received is untouched. -/
theorem fieldRun_passed
    (passed : (fieldRun engine temp field lenOffset offset size priv).value =
      some true) :
    aesBlockSize * conveyedBlocks size ≤ temp.size ∧
      ¬ BrokenPadding (decryptedTemp engine temp priv offset size) size ∧
      (fieldRun engine temp field lenOffset offset size
        priv).state.srcDataBuff = priv.srcDataBuff := by
  by_cases stops : ¬ aesBlockSize * conveyedBlocks size ≤ temp.size ∨
      size < paddingLen (decryptedTemp engine temp priv offset size) size ∧
        ¬ BrokenPadding (decryptedTemp engine temp priv offset size) size
  · rw [fieldRun_stops engine temp field lenOffset offset size priv source
      nonempty stops] at passed
    cases passed
  · obtain ⟨blocks, short⟩ := not_or.mp stops
    have blocks := not_not.mp blocks
    by_cases broken :
        BrokenPadding (decryptedTemp engine temp priv offset size) size
    · obtain ⟨_, run⟩ := fieldRun_broken engine temp field lenOffset offset size
        priv source nonempty blocks broken
      rw [run] at passed
      cases passed
    · have inside : paddingLen (decryptedTemp engine temp priv offset size)
          size ≤ size := by
        by_contra long
        exact short ⟨by omega, broken⟩
      obtain ⟨_, _, run⟩ := fieldRun_whole engine temp field lenOffset offset
        size priv source nonempty isTemp isField blocks inside broken
      refine ⟨blocks, broken, ?_⟩
      rw [run]
      rfl

end Field

/-! ### Both fields -/

section Aes

variable (engine : CryptoEngine) (ssidSize pwdSize : Byte) (priv : Priv)

def pwdRun : Outcome Priv Event Bool :=
  fieldRun engine .tempPwd .pwd pwdLenOffset 0 pwdSize.toNat priv

def ssidRun (after : Priv) : Outcome Priv Event Bool :=
  fieldRun engine .tempSsid .ssid ssidLenOffset pwdSize.toNat ssidSize.toNat
    after

/-- The branch with a key is the passphrase's part, then the ssid's, then the
terminators, each only where the part before it did not `return -1`. -/
theorem decAes_value (granted : engine.pwdLocked = true ∧ engine.ssidLocked = true)
    (sizes : pwdSize.toNat < 66 ∧ ssidSize.toNat < 65) :
    (decAes engine ssidSize pwdSize priv).value =
      ((pwdRun engine pwdSize priv).value.bind fun decoded =>
        if decoded then
          (ssidRun engine ssidSize pwdSize
            (pwdRun engine pwdSize priv).state).value.bind fun decoded =>
              if decoded then
                (terminate (ssidRun engine ssidSize pwdSize
                  (pwdRun engine pwdSize priv).state).state).value.map
                    fun _ => true
              else some false
        else some false) := by
  have accepted : ¬ (66 ≤ pwdSize.toNat ∨ 65 ≤ ssidSize.toNat) := by omega
  unfold decAes pwdRun ssidRun fieldRun
  rw [granted.1, granted.2, if_neg accepted, Traced.bind_apply]
  cases (decField engine true .tempPwd .pwd pwdLenOffset 0 pwdSize.toNat
      priv).value with
  | none => rfl
  | some decoded =>
      cases decoded with
      | false => rfl
      | true =>
          dsimp only
          rw [if_pos rfl, Traced.bind_apply, Option.bind_some, if_pos rfl]
          cases (decField engine true .tempSsid .ssid ssidLenOffset
              pwdSize.toNat ssidSize.toNat
              (decField engine true .tempPwd .pwd pwdLenOffset 0 pwdSize.toNat
                priv).state).value with
          | none => rfl
          | some decoded =>
              cases decoded with
              | false => rfl
              | true =>
                  dsimp only
                  rw [if_pos rfl, Traced.bind_apply, Option.bind_some,
                    if_pos rfl]
                  cases (terminate (decField engine true .tempSsid .ssid
                      ssidLenOffset pwdSize.toNat ssidSize.toNat
                      (decField engine true .tempPwd .pwd pwdLenOffset 0
                        pwdSize.toNat priv).state).state).value with
                  | none => rfl
                  | some done => rfl

def pwdTemp : List Byte := decryptedTemp engine .tempPwd priv 0 pwdSize.toNat

def ssidTemp : List Byte :=
  decryptedTemp engine .tempSsid priv pwdSize.toNat ssidSize.toNat

def FieldsValid : Prop :=
  (pwdSize.toNat ≠ 0 →
    ValidPadding (pwdTemp engine pwdSize priv) pwdSize.toNat) ∧
  (ssidSize.toNat ≠ 0 →
    ValidPadding (ssidTemp engine ssidSize pwdSize priv) ssidSize.toNat)

/-- The branch with a key goes on exactly with valid fields, and the check keeps
its promise on every field it gets to. -/
structure PaddingPromise (agrees : List Byte → List Byte → Prop) : Prop where
  accepts : ∀ decoded, (decAes engine ssidSize pwdSize priv).value =
    some decoded → (decoded = true ↔ FieldsValid engine ssidSize pwdSize priv)
  pwd : pwdSize.toNat ≠ 0 →
    FieldPromise engine .tempPwd .pwd pwdLenOffset 0 pwdSize.toNat priv agrees
  ssid : (pwdRun engine pwdSize priv).value = some true →
    ssidSize.toNat ≠ 0 →
    FieldPromise engine .tempSsid .ssid ssidLenOffset pwdSize.toNat
      ssidSize.toNat (pwdRun engine pwdSize priv).state agrees

/-- A condition on the fields that are decrypted: a passphrase of 65 bytes does
not leave room for the engine's blocks, and a broken padding of the passphrase
keeps the ssid from being looked at. -/
def OnFields (good : List Byte → Nat → Prop) : Prop :=
  (pwdSize.toNat = 0 ∨
    pwdSize.toNat ≤ 64 ∧ good (pwdTemp engine pwdSize priv) pwdSize.toNat) ∧
  (pwdSize.toNat = 0 ∨
      ¬ BrokenPadding (pwdTemp engine pwdSize priv) pwdSize.toNat →
    ssidSize.toNat = 0 ∨
      good (ssidTemp engine ssidSize pwdSize priv) ssidSize.toNat)

theorem pwd_blocks (short : pwdSize.toNat < 66) :
    aesBlockSize * conveyedBlocks pwdSize.toNat ≤ Region.tempPwd.size ↔
      pwdSize.toNat ≤ 64 := by
  unfold conveyedBlocks
  change 16 * (pwdSize.toNat / 16 + if pwdSize.toNat % 16 = 0 then 0 else 1) ≤
    66 ↔ _
  split
  · omega
  · omega

theorem ssid_blocks (short : ssidSize.toNat < 65) :
    aesBlockSize * conveyedBlocks ssidSize.toNat ≤ Region.tempSsid.size := by
  unfold conveyedBlocks
  change 16 * (ssidSize.toNat / 16 +
    if ssidSize.toNat % 16 = 0 then 0 else 1) ≤ 65
  split
  · omega
  · omega

variable {engine ssidSize pwdSize priv}

theorem fieldRun_empty (temp field : Region) (lenOffset offset : Nat) :
    fieldRun engine temp field lenOffset offset 0 priv =
      { value := some true, state := priv, events := [] } := rfl

theorem ssidTemp_congr (after : Priv)
    (src : after.srcDataBuff = priv.srcDataBuff) :
    decryptedTemp engine .tempSsid after pwdSize.toNat ssidSize.toNat =
      ssidTemp engine ssidSize pwdSize priv := by
  unfold ssidTemp decryptedTemp Priv.srcBytes
  rw [src]

structure Compares (agrees : List Byte → List Byte → Prop)
    (good : List Byte → Nat → Prop) : Prop where
  same : ∀ whole size, size ≤ whole.length →
    (BrokenPadding whole size ∨ ValidPadding whole size ∧
        agrees (cString whole) (unpadded whole size) ↔
      good whole size)

theorem pwdPromise_iff (agrees : List Byte → List Byte → Prop)
    (good : List Byte → Nat → Prop) (compares : Compares agrees good)
    (nonempty : pwdSize.toNat ≠ 0) (short : pwdSize.toNat < 66) :
    FieldPromise engine .tempPwd .pwd pwdLenOffset 0 pwdSize.toNat priv agrees ↔
      pwdSize.toNat ≤ 64 ∧ good (pwdTemp engine pwdSize priv) pwdSize.toNat := by
  have source : 0 + pwdSize.toNat ≤ srcDataSize := by
    change _ ≤ 128
    omega
  rw [fieldPromise_iff engine .tempPwd .pwd pwdLenOffset 0 pwdSize.toNat priv
    source (Nat.pos_of_ne_zero nonempty) (Or.inl rfl) (Or.inl rfl) (Or.inl rfl)
    agrees, pwd_blocks pwdSize short]
  apply and_congr_right
  intro fits
  apply compares.same
  rw [length_decryptedTemp engine .tempPwd 0 pwdSize.toNat priv source
    ((pwd_blocks pwdSize short).mpr fits)]
  exact Nat.le_of_lt short

theorem ssidPromise_iff (agrees : List Byte → List Byte → Prop)
    (good : List Byte → Nat → Prop) (compares : Compares agrees good)
    (after : Priv) (src : after.srcDataBuff = priv.srcDataBuff)
    (nonempty : ssidSize.toNat ≠ 0) (short : ssidSize.toNat < 65)
    (pwdFits : pwdSize.toNat ≤ 64) :
    FieldPromise engine .tempSsid .ssid ssidLenOffset pwdSize.toNat
        ssidSize.toNat after agrees ↔
      good (ssidTemp engine ssidSize pwdSize priv) ssidSize.toNat := by
  have source : pwdSize.toNat + ssidSize.toNat ≤ srcDataSize := by
    change _ ≤ 128
    omega
  have blocks := ssid_blocks ssidSize short
  rw [fieldPromise_iff engine .tempSsid .ssid ssidLenOffset pwdSize.toNat
    ssidSize.toNat after source (Nat.pos_of_ne_zero nonempty) (Or.inr rfl)
    (Or.inr rfl) (Or.inr rfl) agrees, and_iff_right blocks, fieldText,
    ssidTemp_congr after src]
  apply compares.same
  rw [← ssidTemp_congr after src, length_decryptedTemp engine .tempSsid
    pwdSize.toNat ssidSize.toNat after source blocks]
  exact Nat.le_of_lt short

theorem pwdRun_passed (short : pwdSize.toNat < 66)
    (passed : (pwdRun engine pwdSize priv).value = some true) :
    pwdSize.toNat ≤ 64 ∧
      (pwdSize.toNat = 0 ∨
        ¬ BrokenPadding (pwdTemp engine pwdSize priv) pwdSize.toNat) ∧
      (pwdRun engine pwdSize priv).state.srcDataBuff = priv.srcDataBuff := by
  by_cases empty : pwdSize.toNat = 0
  · unfold pwdRun
    rw [empty, fieldRun_empty]
    exact ⟨Nat.zero_le _, Or.inl rfl, rfl⟩
  · have source : 0 + pwdSize.toNat ≤ srcDataSize := by
      change _ ≤ 128
      omega
    obtain ⟨blocks, whole, src⟩ := fieldRun_passed engine .tempPwd .pwd
      pwdLenOffset 0 pwdSize.toNat priv source (Nat.pos_of_ne_zero empty)
      (Or.inl rfl) (Or.inl rfl) passed
    exact ⟨(pwd_blocks pwdSize short).mp blocks, Or.inr whole, src⟩

/-- A passphrase whose check keeps its promise and whose padding is not broken
passes. -/
theorem pwdRun_of_promise {agrees : List Byte → List Byte → Prop}
    (short : pwdSize.toNat < 66)
    (promise : pwdSize.toNat ≠ 0 → FieldPromise engine .tempPwd .pwd
      pwdLenOffset 0 pwdSize.toNat priv agrees)
    (reached : pwdSize.toNat = 0 ∨
      ¬ BrokenPadding (pwdTemp engine pwdSize priv) pwdSize.toNat) :
    (pwdRun engine pwdSize priv).value = some true := by
  by_cases empty : pwdSize.toNat = 0
  · unfold pwdRun
    rw [empty, fieldRun_empty]
  · have source : 0 + pwdSize.toNat ≤ srcDataSize := by
      change _ ≤ 128
      omega
    have kept := promise empty
    have either := ((fieldPromise_iff engine .tempPwd .pwd pwdLenOffset 0
      pwdSize.toNat priv source (Nat.pos_of_ne_zero empty) (Or.inl rfl)
      (Or.inl rfl) (Or.inl rfl) agrees).mp kept).2
    have valid := either.resolve_left (reached.resolve_left empty)
    exact (kept.accepts.resolve_right fun failed => failed.2 valid.1).1

theorem decAes_accepts {agrees : List Byte → List Byte → Prop}
    (granted : engine.pwdLocked = true ∧ engine.ssidLocked = true)
    (sizes : pwdSize.toNat < 66 ∧ ssidSize.toNat < 65)
    (pwd : pwdSize.toNat ≠ 0 → FieldPromise engine .tempPwd .pwd pwdLenOffset 0
      pwdSize.toNat priv agrees)
    (ssid : (pwdRun engine pwdSize priv).value = some true →
      ssidSize.toNat ≠ 0 → FieldPromise engine .tempSsid .ssid ssidLenOffset
        pwdSize.toNat ssidSize.toNat (pwdRun engine pwdSize priv).state agrees)
    (decoded : Bool)
    (returned : (decAes engine ssidSize pwdSize priv).value = some decoded) :
    decoded = true ↔ FieldsValid engine ssidSize pwdSize priv := by
  rw [decAes_value engine ssidSize pwdSize priv granted sizes] at returned
  cases pwdAnswer : (pwdRun engine pwdSize priv).value with
  | none =>
      rw [pwdAnswer] at returned
      cases returned
  | some passed =>
      rw [pwdAnswer, Option.bind_some] at returned
      cases passed with
      | false =>
          cases returned
          apply iff_of_false Bool.false_ne_true
          intro valid
          have nonempty : pwdSize.toNat ≠ 0 := by
            intro empty
            unfold pwdRun at pwdAnswer
            rw [empty, fieldRun_empty] at pwdAnswer
            cases pwdAnswer
          rcases (pwd nonempty).accepts with right | wrong
          · have again := right.1.symm.trans pwdAnswer
            cases again
          · exact wrong.2 (valid.1 nonempty)
      | true =>
          have pwdValid : pwdSize.toNat ≠ 0 →
              ValidPadding (pwdTemp engine pwdSize priv) pwdSize.toNat := by
            intro nonempty
            rcases (pwd nonempty).accepts with right | wrong
            · exact right.2
            · have again := wrong.1.symm.trans pwdAnswer
              cases again
          obtain ⟨_, _, src⟩ := pwdRun_passed sizes.1 pwdAnswer
          have temp : decryptedTemp engine .tempSsid
              (pwdRun engine pwdSize priv).state pwdSize.toNat ssidSize.toNat =
                ssidTemp engine ssidSize pwdSize priv := ssidTemp_congr _ src
          rw [if_pos rfl] at returned
          cases ssidAnswer : (ssidRun engine ssidSize pwdSize
              (pwdRun engine pwdSize priv).state).value with
          | none =>
              rw [ssidAnswer] at returned
              cases returned
          | some passed =>
              rw [ssidAnswer, Option.bind_some] at returned
              cases passed with
              | false =>
                  cases returned
                  apply iff_of_false Bool.false_ne_true
                  intro valid
                  have nonempty : ssidSize.toNat ≠ 0 := by
                    intro empty
                    unfold ssidRun at ssidAnswer
                    rw [empty, fieldRun_empty] at ssidAnswer
                    cases ssidAnswer
                  rcases (ssid pwdAnswer nonempty).accepts with right | wrong
                  · have again := right.1.symm.trans ssidAnswer
                    cases again
                  · rw [temp] at wrong
                    exact wrong.2 (valid.2 nonempty)
              | true =>
                  have yes : decoded = true := by
                    rw [if_pos rfl] at returned
                    obtain ⟨_, _, same⟩ := Option.map_eq_some_iff.mp returned
                    exact same.symm
                  apply iff_of_true yes
                  refine ⟨pwdValid, ?_⟩
                  intro nonempty
                  rcases (ssid pwdAnswer nonempty).accepts with right | wrong
                  · rw [temp] at right
                    exact right.2
                  · have again := wrong.1.symm.trans ssidAnswer
                    cases again

theorem promise_iff_onFields (agrees : List Byte → List Byte → Prop)
    (good : List Byte → Nat → Prop) (compares : Compares agrees good)
    (granted : engine.pwdLocked = true ∧ engine.ssidLocked = true)
    (sizes : pwdSize.toNat < 66 ∧ ssidSize.toNat < 65) :
    PaddingPromise engine ssidSize pwdSize priv agrees ↔
      OnFields engine ssidSize pwdSize priv good := by
  constructor
  · intro promise
    constructor
    · by_cases empty : pwdSize.toNat = 0
      · exact Or.inl empty
      · exact Or.inr ((pwdPromise_iff agrees good compares empty sizes.1).mp
          (promise.pwd empty))
    · intro reached
      by_cases none : ssidSize.toNat = 0
      · exact Or.inl none
      · have passed := pwdRun_of_promise sizes.1 promise.pwd reached
        obtain ⟨fits, _, src⟩ := pwdRun_passed sizes.1 passed
        exact Or.inr ((ssidPromise_iff agrees good compares _ src none sizes.2
          fits).mp (promise.ssid passed none))
  · intro fields
    have pwd : pwdSize.toNat ≠ 0 → FieldPromise engine .tempPwd .pwd
        pwdLenOffset 0 pwdSize.toNat priv agrees := by
      intro empty
      exact (pwdPromise_iff agrees good compares empty sizes.1).mpr
        (fields.1.resolve_left empty)
    have ssid : (pwdRun engine pwdSize priv).value = some true →
        ssidSize.toNat ≠ 0 → FieldPromise engine .tempSsid .ssid ssidLenOffset
          pwdSize.toNat ssidSize.toNat (pwdRun engine pwdSize priv).state
          agrees := by
      intro passed none
      obtain ⟨fits, reached, src⟩ := pwdRun_passed sizes.1 passed
      exact (ssidPromise_iff agrees good compares _ src none sizes.2 fits).mpr
        ((fields.2 reached).resolve_left none)
    exact {
      accepts := decAes_accepts granted sizes pwd ssid
      pwd := pwd
      ssid := ssid }

/-- The copied bytes are the plaintext: no field that passes meets it. -/
theorem compares_exactly :
    Compares (fun text plain => text = plain) BrokenPadding := by
  constructor
  intro whole size long
  apply or_iff_left
  rintro ⟨valid, same⟩
  exact valid.copies_more long same

/-- The padding is valid and the text in front of it has no zero, or it is
refused. -/
def ZeroFree (whole : List Byte) (size : Nat) : Prop :=
  BrokenPadding whole size ∨
    ValidPadding whole size ∧ (0 : Byte) ∉ unpadded whole size

theorem compares_text :
    Compares (fun text plain => plain <+: text) ZeroFree := by
  constructor
  intro whole size long
  apply or_congr_right
  apply and_congr_right
  intro valid
  exact valid.copies_text long

/-- With the engine at hand and sizes that are not refused: the check decides,
measures and copies as promised exactly if every field it gets to has a broken
padding; and exactly if every one that it passes has a valid padding and no
zero in its text, where only the first `pwd_len` and `ssid_len` copied bytes
count. -/
theorem paddingPromise_iff (engine : CryptoEngine) (ssidSize pwdSize : Byte)
    (priv : Priv)
    (granted : engine.pwdLocked = true ∧ engine.ssidLocked = true)
    (sizes : pwdSize.toNat < 66 ∧ ssidSize.toNat < 65) :
    (PaddingPromise engine ssidSize pwdSize priv
        (fun text plain => text = plain) ↔
      OnFields engine ssidSize pwdSize priv BrokenPadding) ∧
    (PaddingPromise engine ssidSize pwdSize priv
        (fun text plain => plain <+: text) ↔
      OnFields engine ssidSize pwdSize priv ZeroFree) :=
  ⟨promise_iff_onFields _ _ compares_exactly granted sizes,
    promise_iff_onFields _ _ compares_text granted sizes⟩

end Aes

/-- "abc" and thirteen bytes of padding. -/
def abcBlock : Buffer Byte 16 :=
  { cells := [0x61, 0x62, 0x63] ++ List.replicate 13 13
    size := by decide }

/-- An engine that decrypts every block to it. -/
def abcEngine : CryptoEngine :=
  { pwdLocked := true
    ssidLocked := true
    decrypt := fun _ => abcBlock }

/-- A decoder with a key, in front of sixteen received bytes. -/
def abcPriv : Priv :=
  { aesKey := Buffer.fill 16 1
    leadCode := { scResetLeadCode with ssidpwdLen := 16, pwdLen := 16 }
    status := .lockedChan
    result := Buffer.fill resultSize 0
    srcDataBuff := Buffer.fill srcDataSize 0 }

/-- A passphrase of three characters is copied with all of its padding. -/
theorem abcPadding_copied :
    (pwdRun abcEngine 16 abcPriv).value = some true ∧
      (pwdRun abcEngine 16 abcPriv).state.resultByte pwdLenOffset = 3 ∧
      Event.store .pwd 0 16 ∈ (pwdRun abcEngine 16 abcPriv).events ∧
      (pwdRun abcEngine 16 abcPriv).state.fieldBytes .pwd 16 =
        abcBlock.cells ∧
      ¬ PaddingPromise abcEngine 0 16 abcPriv fun text plain =>
        text = plain := by
  have stored : Event.store .pwd 0 16 ∈
      (pwdRun abcEngine 16 abcPriv).events := by
    decide +kernel
  have text : (pwdRun abcEngine 16 abcPriv).state.fieldBytes .pwd 16 =
      abcBlock.cells := by
    decide +kernel
  have plain : unpadded (decryptedTemp abcEngine .tempPwd abcPriv 0 16) 16 =
      [0x61, 0x62, 0x63] := by
    decide +kernel
  refine ⟨by decide +kernel, by decide +kernel, stored, text, ?_⟩
  intro promise
  have same := ((promise.pwd (by decide)).copied 0 16 stored).2
  have long := congrArg List.length (text.symm.trans (same.trans plain))
  exact absurd long (by decide)

/-- With only the first three of the copied bytes counted it is right. -/
theorem abcPadding_text :
    PaddingPromise abcEngine 0 16 abcPriv fun text plain => plain <+: text := by
  have exact_check := paddingPromise_iff abcEngine 0 16 abcPriv ⟨rfl, rfl⟩
    ⟨by decide, by decide⟩
  refine exact_check.2.mpr ⟨Or.inr ⟨by decide, Or.inr ⟨?_, ?_⟩⟩, ?_⟩
  · exact {
      positive := by decide +kernel
      inside := by decide +kernel
      block := by decide +kernel
      same := by decide +kernel }
  · decide +kernel
  · intro _
    exact Or.inl rfl

end XR872.SmartConfig
