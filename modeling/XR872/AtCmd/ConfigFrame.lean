/-
Which bytes of the configuration a command changes.

A text is copied up to its NUL, whatever the size of its variable, and a text
parameter has room for 63 characters. So a command stays in the variables it
names exactly if the copy ends there, or finds behind them what it writes.
-/

import XR872.AtCmd.ConfigSpec

namespace XR872.AtCmd

open BitView
open Memories

def CfgField.Ends (field : CfgField) (cfg : Nat → Byte) : Prop :=
  0 ∈ field.bytes cfg

instance (field : CfgField) (cfg : Nat → Byte) : Decidable (field.Ends cfg) :=
  inferInstanceAs (Decidable (_ ∈ _))

structure FrameKept (named : CfgField → Prop) (before after : Nat → Byte) :
    Prop where
  bytes : ∀ address, (∀ field : CfgField, named field →
    ¬ field.Covers address) →
    after address = before address
  fields : ∀ field : CfgField, ¬ named field →
    field.bytes after = field.bytes before
  texts : ∀ field : CfgField, field.type = .text → field.Ends before →
    field.Ends after

inductive ConfigCommand where
  | setcfg
  | ssidtxt
deriving DecidableEq, Repr

namespace ConfigCommand

def handler : ConfigCommand → (Nat → Byte) → List Byte →
    AtErrorCode × (Nat → Byte)
  | setcfg => setcfgHandler
  | ssidtxt => ssidtxtHandler

/-- The key that a line gives. -/
def key (ptr : List Byte) : List Byte :=
  cString (ptr.tail.takeWhile fun char => decide (Inside char))

def Names (command : ConfigCommand) (ptr : List Byte) (field : CfgField) :
    Prop :=
  match command with
  | setcfg => ∃ row ∈ atCfgTable, row.key = key ptr ∧ row.pvar = field
  | ssidtxt => field = .wifiSsid ∨ field = .wifiSsidLen

/-- A line that is accepted changes what it names, and one that is rejected
changes nothing. -/
def Keeps (command : ConfigCommand) (cfg : Nat → Byte) (ptr : List Byte) :
    Prop :=
  if (command.handler cfg ptr).1 = .ok then
    FrameKept (command.Names ptr) cfg (command.handler cfg ptr).2
  else (command.handler cfg ptr).2 = cfg

end ConfigCommand

def GivesText (ptr key text : List Byte) : Prop :=
  ∃ rest, ptr = AT_EQU :: (key ++ AT_SEPARATOR :: (text ++ rest)) ∧
    IsText key ∧ IsText text ∧ EndsLine rest

def GivesSsid (ptr ssid : List Byte) : Prop :=
  ∃ rest, ptr = AT_EQU :: (ssid ++ rest) ∧ IsText ssid ∧ EndsLine rest

/-- What a copy writes behind the first `size` bytes is there already. -/
def Unspilled (cfg : Nat → Byte) (place size : Nat) (data : List Byte) : Prop :=
  ∀ index, size ≤ index → index < data.length →
    data[index]? = some (cfg (place + index))

/-- The text and its NUL fit into the variable, or the variable had no end and
is followed by what the copy writes there. -/
def FitsText (cfg : Nat → Byte) (field : CfgField) (text : List Byte) : Prop :=
  text.length < field.size ∨
    (¬ field.Ends cfg ∧ Unspilled cfg field.offset field.size (text ++ [0]))

/-- The condition on a line and the configuration it meets. -/
def ConfigCommand.Fits (command : ConfigCommand) (cfg : Nat → Byte)
    (ptr : List Byte) : Prop :=
  match command with
  | .setcfg => ∀ key text, GivesText ptr key text →
      ∀ row ∈ atCfgTable, row.key = cString key → row.po = .rw →
        row.pt = .text → FitsText cfg row.pvar (cString text)
  | .ssidtxt => ∀ ssid, GivesSsid ptr ssid →
      Unspilled cfg CfgField.wifiSsid.offset
        (CfgField.wifiSsid.size + CfgField.wifiSsidLen.size) (cString ssid)

/-! ### Frames -/

section Frames

variable {named : CfgField → Prop} {before after : Nat → Byte}

theorem bytes_of_same (field : CfgField)
    (same : ∀ address, field.Covers address → after address = before address) :
    field.bytes after = field.bytes before := by
  apply load_congr
  intro index within
  exact same _ ⟨Nat.le_add_right _ _, Nat.add_lt_add_left within _⟩

theorem not_covers (left right : CfgField) (different : left ≠ right)
    (address : Nat) (covered : left.Covers address) :
    ¬ right.Covers address := by
  have apart := CfgField.apart left right different
  unfold CfgField.Covers at covered ⊢
  omega

theorem frameKept_iff :
    FrameKept named before after ↔
      (∀ address, (∀ field, named field → ¬ field.Covers address) →
        after address = before address) ∧
      ∀ field, named field → field.type = .text → field.Ends before →
        field.Ends after := by
  constructor
  · intro framed
    exact ⟨framed.bytes, fun field _ => framed.texts field⟩
  · rintro ⟨bytes, texts⟩
    have fields : ∀ field, ¬ named field →
        field.bytes after = field.bytes before := by
      intro field other
      apply bytes_of_same
      intro address covered
      apply bytes
      intro wanted isNamed
      apply not_covers field wanted _ address covered
      intro same
      rw [same] at other
      exact other isNamed
    refine { bytes, fields, texts := ?_ }
    intro field isText ends
    by_cases isNamed : named field
    · exact texts field isNamed isText ends
    · unfold CfgField.Ends
      rw [fields field isNamed]
      exact ends

theorem frameKept_same (cfg : Nat → Byte) : FrameKept named cfg cfg :=
  { bytes := fun _ _ => rfl
    fields := fun _ _ => rfl
    texts := fun _ _ ends => ends }

/-- A store to one field changes no other byte exactly if it does not spill. -/
theorem store_bytes_iff (field : CfgField) (data : List Byte) :
    (∀ address, (∀ wanted, wanted = field → ¬ wanted.Covers address) →
        store before field.offset data address = before address) ↔
      Unspilled before field.offset field.size data := by
  constructor
  · intro kept index past within
    have here := kept (field.offset + index) (by
      rintro wanted rfl ⟨_, inside⟩
      omega)
    rw [store_inside, List.getD_eq_getElem _ _ within] at here
    rw [List.getElem?_eq_getElem within, here]
  · intro unspilled address outside
    have away := outside field rfl
    unfold CfgField.Covers at away
    by_cases reached : field.offset + field.size ≤ address ∧
        address < field.offset + data.length
    · obtain ⟨index, rfl⟩ : ∃ index, address = field.offset + index :=
        ⟨address - field.offset, by omega⟩
      rw [store_inside, List.getD_eq_getElem?_getD,
        unspilled index (by omega) (by omega)]
      rfl
    · apply store_outside
      omega

theorem frameKept_store (field : CfgField) (data : List Byte)
    (fits : data.length ≤ field.size) (other : field.type ≠ .text) :
    FrameKept (fun wanted => wanted = field) before
      (store before field.offset data) := by
  refine frameKept_iff.mpr ⟨?_, ?_⟩
  · apply (store_bytes_iff field data).mpr
    intro index past within
    omega
  · rintro wanted rfl isText
    exact absurd isText other

end Frames

/-! ### Texts -/

theorem cString_ne_zero (text : List Byte) (char : Byte)
    (member : char ∈ cString text) : char ≠ 0 := by
  have kept := List.mem_takeWhile_imp member
  exact of_decide_eq_true kept

theorem ends_copied (cfg : Nat → Byte) (field : CfgField) (text : List Byte) :
    field.Ends (store cfg field.offset (cString text ++ [0])) ↔
      (cString text).length < field.size := by
  have length : (cString text ++ [0]).length = (cString text).length + 1 := by
    rw [List.length_append, List.length_singleton]
  unfold CfgField.Ends CfgField.bytes
  rw [mem_load]
  constructor
  · rintro ⟨index, within, zero⟩
    by_contra long
    rw [store_inside, List.getD_eq_getElem _ _ (by omega),
      List.getElem_append_left (by omega)] at zero
    exact cString_ne_zero text _ (List.getElem_mem _) zero
  · intro fits
    refine ⟨(cString text).length, fits, ?_⟩
    rw [store_inside, List.getD_eq_getElem _ _ (by omega),
      List.getElem_append_right (Nat.le_refl _)]
    simp

theorem frameKept_copied (cfg : Nat → Byte) (field : CfgField) (text : List Byte)
    (isText : field.type = .text) :
    FrameKept (fun wanted => wanted = field) cfg
        (store cfg field.offset (cString text ++ [0])) ↔
      FitsText cfg field (cString text) := by
  rw [frameKept_iff, store_bytes_iff]
  unfold FitsText
  constructor
  · rintro ⟨unspilled, texts⟩
    by_cases fits : (cString text).length < field.size
    · exact Or.inl fits
    · refine Or.inr ⟨?_, unspilled⟩
      intro ends
      exact fits ((ends_copied cfg field text).mp (texts field rfl isText ends))
  · rintro (fits | ⟨noEnd, unspilled⟩)
    · constructor
      · intro index past within
        rw [List.length_append, List.length_singleton] at within
        omega
      · rintro wanted rfl _ _
        exact (ends_copied cfg wanted text).mpr fits
    · refine ⟨unspilled, ?_⟩
      rintro wanted rfl _ ends
      exact absurd ends noEnd

/-! ### Setting a variable -/

theorem key_of_split (key rest : List Byte) (isText : IsText key) :
    ConfigCommand.key (AT_EQU :: (key ++ AT_SEPARATOR :: rest)) =
      cString key := by
  unfold ConfigCommand.key
  rw [List.tail_cons, List.takeWhile_append_of_pos
    (fun char member => decide_eq_true (isText.inside char member)),
    List.takeWhile_cons_of_neg (by decide), List.append_nil]

theorem names_row (ptr : List Byte) (row : AtVarDescriptor)
    (member : row ∈ atCfgTable)
    (named : row.key = ConfigCommand.key ptr) :
    ConfigCommand.setcfg.Names ptr = fun wanted => wanted = row.pvar := by
  funext field
  apply propext
  constructor
  · rintro ⟨other, inside, same, rfl⟩
    rw [row_of_key other row inside member (same.trans named.symm)]
  · intro same
    exact ⟨row, member, named, same.symm⟩

theorem rows_unverified : ∀ row ∈ atCfgTable,
    row.pt ≠ .di → row.verify.isNone = true := by decide

theorem small_rows : ∀ row ∈ atCfgTable,
    row.pt = .di ∨ row.pt = .hi → row.pvar.size = 4 := by decide

theorem verified_other (row : AtVarDescriptor) (member : row ∈ atCfgTable)
    (other : row.pt ≠ .di) (value : AtValue) : row.verified value = true := by
  have none_ := Option.isNone_iff_eq_none.mp (rows_unverified row member other)
  unfold AtVarDescriptor.verified
  rw [none_]

theorem frameKept_value (cfg : Nat → Byte) (row : AtVarDescriptor)
    (member : row ∈ atCfgTable) (value : AtValue) (other : row.pt ≠ .text) :
    FrameKept (fun wanted => wanted = row.pvar) cfg
      (atSetValue row.pt cfg row.pvar.offset row.vsize value) := by
  obtain ⟨type, size⟩ := rows_typed row member
  have small := small_rows row member
  rw [← type] at other
  unfold atSetValue
  split
  · rename_i isText
    exact absurd (type.trans isText) other
  · apply frameKept_store _ _ _ other
    rw [size]
    exact List.length_take_le _ _
  · rename_i isDi
    apply frameKept_store _ _ _ other
    rw [toBytes_length, small (Or.inl isDi)]
  · rename_i isHi
    apply frameKept_store _ _ _ other
    rw [toBytes_length, small (Or.inr isHi)]
  · apply frameKept_store _ _ _ other
    rw [size]
    exact List.length_take_le _ _
  · exact frameKept_same cfg

theorem keeps_of_same (command : ConfigCommand) (cfg : Nat → Byte)
    (ptr : List Byte) (same : (command.handler cfg ptr).2 = cfg) :
    command.Keeps cfg ptr := by
  unfold ConfigCommand.Keeps
  split
  · rw [same]
    exact frameKept_same cfg
  · exact same

theorem setcfg_keeps (cfg : Nat → Byte) (ptr : List Byte)
    (fits : ConfigCommand.setcfg.Fits cfg ptr) :
    ConfigCommand.setcfg.Keeps cfg ptr := by
  cases taken : setcfgArguments ptr with
  | error answer =>
      apply keeps_of_same
      simp only [ConfigCommand.handler, setcfgHandler, taken]
  | ok arguments =>
      obtain ⟨key, value⟩ := arguments
      obtain ⟨rest, row, split_, isText, found, stored⟩ :=
        (setcfgArguments_ok ptr key value).mp taken
      obtain ⟨member, named⟩ := atCfgFind_some key row found
      have result : ConfigCommand.setcfg.handler cfg ptr = _ :=
        setcfgHandler_taken cfg ptr key value row taken found
      by_cases writable : row.po = .rw
      · rw [if_neg (not_not.mpr writable)] at result
        cases checked : row.verified value with
        | false =>
            rw [checked, if_neg Bool.false_ne_true] at result
            apply keeps_of_same
            rw [result]
        | true =>
            rw [checked, if_pos rfl] at result
            unfold ConfigCommand.Keeps
            rw [result, if_pos rfl, names_row ptr row member
              (by rw [split_, key_of_split key rest isText, named])]
            by_cases textual : row.pt = .text
            · rw [textual] at stored
              obtain ⟨text, line, same⟩ := Option.map_eq_some_iff.mp stored
              obtain ⟨tail, split, shape, ends⟩ := (lastText rest text).mp line
              rw [textual, ← same]
              apply (frameKept_copied cfg row.pvar text
                ((rows_typed row member).1.trans textual)).mpr
              apply fits key text _ row member named writable textual
              exact ⟨tail, by rw [split_, split], isText, shape, ends⟩
            · exact frameKept_value cfg row member value textual
      · rw [if_pos writable] at result
        apply keeps_of_same
        rw [result]

theorem setcfg_fits (cfg : Nat → Byte) (ptr : List Byte)
    (keeps : ConfigCommand.setcfg.Keeps cfg ptr) :
    ConfigCommand.setcfg.Fits cfg ptr := by
  rintro key text ⟨rest, split, isText, shape, ends⟩ row member named writable
    textual
  have found := atCfgFind_row key row member named
  have stored : (getPara row.pt (valueOption row.pt) (text ++ rest)).stored =
      some (.text text) := by
    rw [textual]
    change Option.map _ _ = _
    rw [show valueOption .text = AET_LINE ||| SIZE_LIMIT AT_PARA_MAX_SIZE from rfl,
      (lastText (text ++ rest) text).mpr ⟨rest, rfl, shape, ends⟩]
    rfl
  have taken := (setcfgArguments_ok ptr key (.text text)).mpr
    ⟨text ++ rest, row, split, isText, found, stored⟩
  have checked := verified_other row member (by rw [textual]; decide)
    (.text text)
  have result : ConfigCommand.setcfg.handler cfg ptr =
      (.ok, store cfg row.pvar.offset (cString text ++ [0])) := by
    refine (setcfgHandler_taken cfg ptr key _ row taken found).trans ?_
    rw [if_neg (not_not.mpr writable), checked, if_pos rfl, textual]
    rfl
  unfold ConfigCommand.Keeps at keeps
  rw [result, if_pos rfl, names_row ptr row member
    (by rw [split, key_of_split key _ isText, named])] at keeps
  exact (frameKept_copied cfg row.pvar text
    ((rows_typed row member).1.trans textual)).mp keeps

/-! ### A textual SSID -/

theorem ssidLen_behind :
    CfgField.wifiSsidLen.offset =
      CfgField.wifiSsid.offset + CfgField.wifiSsid.size := by decide

/-- What `at_ssidtxt` leaves outside of the two variables it is for. -/
theorem atSsidtxt_outside (cfg : Nat → Byte) (ssid : List Byte) (address : Nat)
    (ssidAway : ¬ CfgField.wifiSsid.Covers address)
    (lenAway : ¬ CfgField.wifiSsidLen.Covers address) :
    (atSsidtxt cfg ssid).2 address =
      store cfg CfgField.wifiSsid.offset (cString ssid) address := by
  unfold CfgField.Covers at ssidAway lenAway
  simp only [atSsidtxt]
  rw [store_outside _ CfgField.wifiSsidLen.offset _ address (by
    rw [toBytes_length]
    change _ ∨ _ + CfgField.wifiSsidLen.size ≤ _
    omega)]
  have cleared := store_outside cfg CfgField.wifiSsid.offset
    (List.replicate CfgField.wifiSsid.size 0) address (by
      rw [List.length_replicate]
      omega)
  unfold store at cleared ⊢
  split
  · rename_i reached
    rw [if_pos reached] at cleared
    rw [cleared]
  · rfl

theorem ssidtxt_frameKept (cfg : Nat → Byte) (ptr ssid : List Byte) :
    FrameKept (ConfigCommand.ssidtxt.Names ptr) cfg (atSsidtxt cfg ssid).2 ↔
      Unspilled cfg CfgField.wifiSsid.offset
        (CfgField.wifiSsid.size + CfgField.wifiSsidLen.size)
        (cString ssid) := by
  have behind := ssidLen_behind
  rw [frameKept_iff]
  constructor
  · rintro ⟨kept, _⟩ index past within
    have ssidAway : ¬ CfgField.wifiSsid.Covers
        (CfgField.wifiSsid.offset + index) := by
      unfold CfgField.Covers
      omega
    have lenAway : ¬ CfgField.wifiSsidLen.Covers
        (CfgField.wifiSsid.offset + index) := by
      unfold CfgField.Covers
      omega
    have here := kept (CfgField.wifiSsid.offset + index) (by
      rintro field (rfl | rfl)
      · exact ssidAway
      · exact lenAway)
    rw [atSsidtxt_outside cfg ssid _ ssidAway lenAway, store_inside,
      List.getD_eq_getElem _ _ within] at here
    rw [List.getElem?_eq_getElem within, here]
  · intro unspilled
    constructor
    · intro address away
      have ssidAway := away .wifiSsid (Or.inl rfl)
      have lenAway := away .wifiSsidLen (Or.inr rfl)
      rw [atSsidtxt_outside cfg ssid address ssidAway lenAway]
      unfold CfgField.Covers at ssidAway lenAway
      by_cases reached : CfgField.wifiSsid.offset ≤ address ∧
          address < CfgField.wifiSsid.offset + (cString ssid).length
      · obtain ⟨index, rfl⟩ :
            ∃ index, address = CfgField.wifiSsid.offset + index :=
          ⟨address - CfgField.wifiSsid.offset, by omega⟩
        rw [store_inside, List.getD_eq_getElem?_getD,
          unspilled index (by omega) (by omega)]
        rfl
      · apply store_outside
        omega
    · rintro field (rfl | rfl) isText
      · cases isText
      · cases isText

theorem ssidtxt_keeps_iff (cfg : Nat → Byte) (ptr : List Byte) :
    ConfigCommand.ssidtxt.Keeps cfg ptr ↔
      ConfigCommand.ssidtxt.Fits cfg ptr := by
  cases taken : ssidtxtArguments ptr with
  | error answer =>
      refine iff_of_true ?_ ?_
      · apply keeps_of_same
        simp only [ConfigCommand.handler, ssidtxtHandler, taken]
      · intro ssid given
        have accepted := (ssidtxtArguments_ok ptr ssid).mpr given
        rw [taken] at accepted
        cases accepted
  | ok ssid =>
      have given := (ssidtxtArguments_ok ptr ssid).mp taken
      have result : ConfigCommand.ssidtxt.handler cfg ptr =
          (.ok, (atSsidtxt cfg ssid).2) := by
        simp only [ConfigCommand.handler, ssidtxtHandler, taken]
        rfl
      unfold ConfigCommand.Keeps
      rw [result, if_pos rfl, ssidtxt_frameKept]
      constructor
      · intro unspilled other otherGiven
        have accepted := (ssidtxtArguments_ok ptr other).mpr otherGiven
        rw [taken] at accepted
        cases accepted
        exact unspilled
      · intro fits
        exact fits ssid given

/-! ### Both commands -/

/-- A command keeps its frame exactly if what it copies fits. -/
theorem keeps_iff (command : ConfigCommand) (cfg : Nat → Byte)
    (ptr : List Byte) : command.Keeps cfg ptr ↔ command.Fits cfg ptr := by
  cases command with
  | setcfg => exact ⟨setcfg_fits cfg ptr, setcfg_keeps cfg ptr⟩
  | ssidtxt => exact ssidtxt_keeps_iff cfg ptr

/-- Nine characters for `escape_seq` reach `localecho1`, and forty for
`wifi_ssid` reach `wifi_channelnum`. -/
theorem longTexts_notKept :
    ¬ ConfigCommand.setcfg.Keeps (fun _ => 0)
      (charBytes "=escape_seq,+++stop++\r\n") ∧
    ¬ ConfigCommand.ssidtxt.Keeps (fun _ => 0)
      (charBytes "=0123456789012345678901234567890123456789\r\n") := by
  constructor
  · intro keeps
    have framed : FrameKept _ _ _ := (if_pos (by decide)).mp keeps
    have same := framed.fields .localecho1 (by
      rintro ⟨row, member, named, own⟩
      revert row
      decide)
    revert same
    decide
  · intro keeps
    have framed : FrameKept _ _ _ := (if_pos (by decide)).mp keeps
    have same := framed.fields .wifiChannelnum (by
      rintro (other | other)
      · cases other
      · cases other)
    revert same
    decide

end XR872.AtCmd
