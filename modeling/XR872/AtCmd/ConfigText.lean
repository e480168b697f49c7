/-
The text printed for a variable, given back as its value.

Texts and addresses come back as they were. The sign of an integer, the prefix
of a mask and the separator in an array are printed and not read.
-/

import XR872.AtCmd.ConfigFrame
import XR872.AtCmd.ValueText
import XR872.Library.Packing

namespace XR872.AtCmd

open BitView
open Memories
open Packing

def configLine (cfg : Nat → Byte) (cmdline : List Byte) :
    Option (AtErrorCode × (Nat → Byte)) :=
  match atParseCmd cmdline with
  | .handler 5 ptr => some (setcfgHandler cfg ptr)
  | .handler 6 ptr => some (ssidtxtHandler cfg ptr)
  | _ => none

def scfgLine (key text ending : List Byte) : List Byte :=
  charBytes "AT+S.SCFG" ++ AT_EQU :: (key ++ AT_SEPARATOR :: (text ++ ending))

def lineEnds : List (List Byte) := [[AT_CR], [AT_LF], [AT_CR, AT_LF]]

def AtVarDescriptor.bytes (row : AtVarDescriptor) (cfg : Nat → Byte) :
    List Byte :=
  load cfg row.pvar.offset row.vsize

/-- What is printed for the variable is accepted for it, and leaves it as it
was. -/
def RoundTrips (row : AtVarDescriptor) (cfg : Nat → Byte) : Prop :=
  ∃ text, atGetValue row.pt (row.bytes cfg) = some text ∧
    ∀ ending ∈ lineEnds, ∃ after,
      configLine cfg (scfgLine row.key text ending) = some (.ok, after) ∧
        row.bytes after = row.bytes cfg

/-- Of a text: it ends in its array, is not empty and has no separator. -/
def Holdable (row : AtVarDescriptor) (cfg : Nat → Byte) : Prop :=
  row.pt = .text →
    0 ∈ row.bytes cfg ∧ cString (row.bytes cfg) ≠ [] ∧
      AT_SEPARATOR ∉ cString (row.bytes cfg)

/-- The condition on a variable and its value. -/
def Repeats (row : AtVarDescriptor) (cfg : Nat → Byte) : Prop :=
  match row.pt with
  | .text => AT_CR ∉ cString (row.bytes cfg) ∧ AT_LF ∉ cString (row.bytes cfg)
  | .di => 0 ≤ (ofBytes 32 (row.bytes cfg)).toInt ∧
      row.verified (.di (ofBytes 32 (row.bytes cfg))) = true
  | .ip => True
  | .hex | .hi => False

instance (row : AtVarDescriptor) (cfg : Nat → Byte) :
    Decidable (Holdable row cfg) :=
  inferInstanceAs (Decidable (_ → _))

instance (row : AtVarDescriptor) (cfg : Nat → Byte) :
    Decidable (Repeats row cfg) :=
  match row with
  | { pt := .text, .. } | { pt := .di, .. } =>
      inferInstanceAs (Decidable (_ ∧ _))
  | { pt := .ip, .. } => inferInstanceAs (Decidable True)
  | { pt := .hex, .. } | { pt := .hi, .. } => inferInstanceAs (Decidable False)

/-! ### One line -/

theorem configLine_scfg (cfg : Nat → Byte) (key text ending : List Byte) :
    configLine cfg (scfgLine key text ending) =
      some (setcfgHandler cfg
        (AT_EQU :: (key ++ AT_SEPARATOR :: (text ++ ending)))) := by
  have parsed : atParseCmd (scfgLine key text ending) =
      .handler 5 (AT_EQU :: (key ++ AT_SEPARATOR :: (text ++ ending))) := rfl
  simp only [configLine, parsed]

theorem row_isText (row : AtVarDescriptor) (member : row ∈ atCfgTable) :
    IsText row.key ∧ row.key = cString row.key := by
  obtain ⟨inside, some_, short, same⟩ := keys_plain row member
  exact ⟨⟨inside, some_, short⟩, same.symm⟩

/-- What the handler does with a value for a variable that can be written. -/
theorem setcfg_row (cfg : Nat → Byte) (row : AtVarDescriptor)
    (member : row ∈ atCfgTable) (writable : row.po = .rw) (rest : List Byte) :
    setcfgHandler cfg (AT_EQU :: (row.key ++ AT_SEPARATOR :: rest)) =
      match (getPara row.pt (valueOption row.pt) rest).stored with
      | none => (.paraError, cfg)
      | some value =>
          if row.verified value then
            (.ok, atSetValue row.pt cfg row.pvar.offset row.vsize value)
          else (.outOfRange, cfg) := by
  obtain ⟨isText, same⟩ := row_isText row member
  have found := atCfgFind_row row.key row member same
  have keyed := (keyParameters (row.key ++ AT_SEPARATOR :: rest) rest
    row.key).mpr ⟨rfl, isText⟩
  simp only [setcfgHandler, setcfgArguments, ne_eq, not_true_eq_false, if_false,
    keyed, valueDescriptor row.key row found, atGetParameters_single]
  cases (getPara row.pt (valueOption row.pt) rest).stored with
  | none => rfl
  | some value =>
      simp only [atSetcfg, found, ne_eq, writable, not_true_eq_false, if_false]

/-- A printed text comes back exactly if it is taken for a value that passes
the check of the variable and leaves its bytes. -/
theorem roundTrips_iff_taken (row : AtVarDescriptor) (cfg : Nat → Byte)
    (member : row ∈ atCfgTable) (writable : row.po = .rw) (text : List Byte)
    (printed : atGetValue row.pt (row.bytes cfg) = some text) :
    RoundTrips row cfg ↔
      ∀ ending ∈ lineEnds, ∃ value,
        (getPara row.pt (valueOption row.pt) (text ++ ending)).stored =
          some value ∧ row.verified value = true ∧
        row.bytes (atSetValue row.pt cfg row.pvar.offset row.vsize value) =
          row.bytes cfg := by
  unfold RoundTrips
  rw [printed]
  simp only [Option.some.injEq, exists_eq_left', configLine_scfg,
    setcfg_row cfg row member writable]
  apply forall₂_congr
  intro ending _
  cases (getPara row.pt (valueOption row.pt) (text ++ ending)).stored with
  | none => simp
  | some value =>
      by_cases checked : row.verified value = true
      · simp [checked]
      · simp [checked]

theorem lineEnds_end (ending : List Byte) (member : ending ∈ lineEnds) :
    EndsLine ending := by
  revert ending
  decide

theorem option_asked (pt : AtParaType) :
    AET_LINE &&& valueOption pt ≠ 0 := by
  cases pt <;> decide

/-- A text that no end of the line makes a parameter does not come back. -/
theorem not_roundTrips (row : AtVarDescriptor) (cfg : Nat → Byte)
    (member : row ∈ atCfgTable) (writable : row.po = .rw) (text : List Byte)
    (printed : atGetValue row.pt (row.bytes cfg) = some text)
    (refused : (getPara row.pt (valueOption row.pt) (text ++ [AT_CR])).stored =
      none) : ¬ RoundTrips row cfg := by
  rw [roundTrips_iff_taken row cfg member writable text printed]
  intro taken
  obtain ⟨value, stored, _⟩ := taken [AT_CR] List.mem_cons_self
  rw [refused] at stored
  cases stored

/-! ### Integers, masks, arrays and addresses -/

theorem bytes_length (row : AtVarDescriptor) (cfg : Nat → Byte) :
    (row.bytes cfg).length = row.vsize :=
  length_load _ _ _

theorem wide_rows : ∀ row ∈ atCfgTable, row.po = .rw →
    (row.pt = .di → row.vsize = 4) ∧ (row.pt = .ip → row.vsize = 4) ∧
      (row.pt = .hex → 2 ≤ row.vsize) ∧
      (row.pt = .text → row.vsize ≤ AT_PARA_MAX_SIZE) := by decide

theorem bytes_stored (row : AtVarDescriptor) (cfg : Nat → Byte) :
    store cfg row.pvar.offset (row.bytes cfg) = cfg :=
  store_load cfg row.pvar.offset row.vsize

theorem roundTrips_di (row : AtVarDescriptor) (cfg : Nat → Byte)
    (member : row ∈ atCfgTable) (writable : row.po = .rw)
    (type : row.pt = .di) :
    RoundTrips row cfg ↔
      0 ≤ (ofBytes 32 (row.bytes cfg)).toInt ∧
        row.verified (.di (ofBytes 32 (row.bytes cfg))) = true := by
  have printed : atGetValue row.pt (row.bytes cfg) =
      some (charBytes (toString (ofBytes 32 (row.bytes cfg)).toInt)) := by
    rw [type]
    rfl
  have four := (bytes_length row cfg).trans ((wide_rows row member writable).1 type)
  by_cases natural : 0 ≤ (ofBytes 32 (row.bytes cfg)).toInt
  · rw [roundTrips_iff_taken row cfg member writable _ printed]
    have stored : ∀ ending ∈ lineEnds, (getPara row.pt (valueOption row.pt)
        (charBytes (toString (ofBytes 32 (row.bytes cfg)).toInt) ++
          ending)).stored = some (.di (ofBytes 32 (row.bytes cfg))) := by
      intro ending inside
      have back := getDiPara_text _ ending _ natural
        (lineEnds_end ending inside) (option_asked .di)
      rw [type]
      simp only [getPara, Para.map, back, Option.map_some]
    constructor
    · intro taken
      obtain ⟨value, same, checked, _⟩ := taken [AT_CR] List.mem_cons_self
      rw [stored [AT_CR] List.mem_cons_self] at same
      rw [← Option.some.inj same] at checked
      exact ⟨natural, checked⟩
    · rintro ⟨_, checked⟩ ending inside
      refine ⟨_, stored ending inside, checked, ?_⟩
      simp only [type, atSetValue, toBytes_ofBytes _ (congrArg (8 * ·) four), bytes_stored]
  · refine iff_of_false ?_ fun both => natural both.1
    apply not_roundTrips row cfg member writable _ printed
    rw [type]
    simp only [getPara, Para.map]
    rw [getDiPara_negative _ _ _ (Int.not_le.mp natural)]
    rfl

theorem roundTrips_hi (row : AtVarDescriptor) (cfg : Nat → Byte)
    (member : row ∈ atCfgTable) (writable : row.po = .rw)
    (type : row.pt = .hi) : ¬ RoundTrips row cfg := by
  apply not_roundTrips row cfg member writable
    (charBytes "0x" ++ hexText 8 (ofBytes 32 (row.bytes cfg)).toNat)
  · rw [type]
    rfl
  · rw [type, List.append_assoc]
    simp only [getPara, Para.map, getHiPara_prefixed, Option.map_none]

theorem roundTrips_hex (row : AtVarDescriptor) (cfg : Nat → Byte)
    (member : row ∈ atCfgTable) (writable : row.po = .rw)
    (type : row.pt = .hex) : ¬ RoundTrips row cfg := by
  have wide := (wide_rows row member writable).2.2.1 type
  have length := bytes_length row cfg
  obtain ⟨first, second, rest, split⟩ :
      ∃ first second rest, row.bytes cfg = first :: second :: rest := by
    match row.bytes cfg, length with
    | [], short => simp at short; omega
    | [_], short => simp at short; omega
    | first :: second :: rest, _ => exact ⟨first, second, rest, rfl⟩
  apply not_roundTrips row cfg member writable
    (separated 0x3a#8 (fun byte => hexText 2 byte.toNat)
      (first :: second :: rest))
  · rw [type, split]
    rfl
  · rw [type]
    simp only [getPara, Para.map, getHexPara_separated, Option.map_none]

theorem roundTrips_ip (row : AtVarDescriptor) (cfg : Nat → Byte)
    (member : row ∈ atCfgTable) (writable : row.po = .rw)
    (type : row.pt = .ip) : RoundTrips row cfg := by
  have size := (wide_rows row member writable).2.1 type
  have length := bytes_length row cfg
  rw [roundTrips_iff_taken row cfg member writable
    (separated AT_DOT (fun byte => charBytes (toString byte.toNat))
      (row.bytes cfg)) (by rw [type]; rfl)]
  intro ending inside
  have back := getIpPara_text (row.bytes cfg) ending (valueOption .ip)
    (length.trans size) (lineEnds_end ending inside) (option_asked .ip)
  refine ⟨.ip (row.bytes cfg), ?_, ?_, ?_⟩
  · rw [type]
    simp only [getPara, Para.map, back, Option.map_some]
  · exact verified_other row member (by rw [type]; decide) _
  · simp only [type, atSetValue, List.take_of_length_le (Nat.le_of_eq length),
      bytes_stored]

/-! ### Texts -/

theorem cString_eq (text rest : List Byte)
    (noZero : ∀ char ∈ text, char ≠ 0) :
    cString (text ++ 0 :: rest) = text := by
  unfold cString
  rw [List.takeWhile_append_of_pos fun char member =>
      decide_eq_true (noZero char member),
    List.takeWhile_cons_of_neg (by decide), List.append_nil]

theorem cString_split (bytes : List Byte) (ends : 0 ∈ bytes) :
    ∃ rest, bytes = cString bytes ++ 0 :: rest := by
  induction bytes with
  | nil => cases ends
  | cons byte bytes ih =>
      by_cases zero : byte = 0
      · refine ⟨bytes, ?_⟩
        rw [zero]
        rfl
      · obtain ⟨rest, split⟩ := ih (by
          rcases List.mem_cons.mp ends with same | later
          · exact absurd same.symm zero
          · exact later)
        refine ⟨rest, ?_⟩
        have step : cString (byte :: bytes) = byte :: cString bytes :=
          List.takeWhile_cons_of_pos (decide_eq_true zero)
        rw [step, List.cons_append, ← split]

theorem copy_same (cfg : Nat → Byte) (place size : Nat)
    (ends : 0 ∈ load cfg place size) :
    store cfg place (cString (load cfg place size) ++ [0]) = cfg := by
  obtain ⟨rest, split⟩ := cString_split _ ends
  have length := congrArg List.length split
  rw [length_load, List.length_append, List.length_cons] at length
  have whole : load cfg place size =
      load cfg place ((cString (load cfg place size)).length + 1) ++
        load cfg (place + ((cString (load cfg place size)).length + 1))
          rest.length := by
    rw [← load_append]
    congr 1
    omega
  have front : load cfg place ((cString (load cfg place size)).length + 1) =
      cString (load cfg place size) ++ [0] := by
    have both : load cfg place ((cString (load cfg place size)).length + 1) ++
        load cfg (place + ((cString (load cfg place size)).length + 1))
          rest.length = (cString (load cfg place size) ++ [0]) ++ rest := by
      rw [← whole, List.append_assoc, List.singleton_append, ← split]
    exact List.append_inj_left both (by simp)
  rw [← front]
  exact store_load _ _ _

theorem cString_copied (cfg : Nat → Byte) (place size : Nat) (text : List Byte)
    (fits : (cString text).length < size) :
    cString (load (store cfg place (cString text ++ [0])) place size) =
      cString text := by
  have length : (cString text ++ [0]).length = (cString text).length + 1 := by
    rw [List.length_append, List.length_singleton]
  have whole : size = (cString text ++ [0]).length +
      (size - ((cString text).length + 1)) := by omega
  rw [whole, load_append, load_store, List.append_assoc, List.singleton_append]
  exact cString_eq _ _ (cString_ne_zero text)

theorem cString_length_lt (bytes : List Byte) (ends : 0 ∈ bytes) :
    (cString bytes).length < bytes.length := by
  obtain ⟨rest, split⟩ := cString_split bytes ends
  have length := congrArg List.length split
  rw [List.length_append, List.length_cons] at length
  omega

theorem roundTrips_text (row : AtVarDescriptor) (cfg : Nat → Byte)
    (member : row ∈ atCfgTable) (writable : row.po = .rw)
    (type : row.pt = .text) (held : Holdable row cfg) :
    RoundTrips row cfg ↔
      AT_CR ∉ cString (row.bytes cfg) ∧ AT_LF ∉ cString (row.bytes cfg) := by
  obtain ⟨ends, some_, noSeparator⟩ := held type
  have size := (wide_rows row member writable).2.2.2 type
  have length := bytes_length row cfg
  have short := cString_length_lt _ ends
  have taken : ∀ line text, (getPara row.pt (valueOption row.pt) line).stored =
        some (.text text) ↔
      ∃ rest, line = text ++ rest ∧ IsText text ∧ EndsLine rest := by
    intro line text
    rw [type, ← lastText]
    simp only [getPara, Para.map, valueOption, Option.map_eq_some_iff,
      AtValue.text.injEq, exists_eq_right]
  rw [roundTrips_iff_taken row cfg member writable (cString (row.bytes cfg))
    (by rw [type]; exact if_pos ends)]
  constructor
  · intro back
    obtain ⟨value, stored, _, same⟩ := back [AT_CR] List.mem_cons_self
    obtain ⟨text, rfl⟩ : ∃ text, value = .text text := by
      rw [type] at stored
      obtain ⟨text, _, same⟩ := Option.map_eq_some_iff.mp stored
      exact ⟨text, same.symm⟩
    obtain ⟨rest, split, isText, _⟩ := (taken _ _).mp stored
    -- A text that was cut at a line end is not the one that was printed.
    have whole : (cString (row.bytes cfg)).length ≤ text.length := by
      by_contra cut
      have kept : (cString text).length ≤ text.length :=
        (List.takeWhile_prefix _).length_le
      have after := cString_copied cfg row.pvar.offset row.vsize text (by omega)
      simp only [type, atSetValue, AtVarDescriptor.bytes] at same
      rw [same] at after
      have lengths := congrArg List.length after
      unfold AtVarDescriptor.bytes at cut
      omega
    have front : cString (row.bytes cfg) <+: text :=
      List.prefix_of_prefix_length_le (List.prefix_append _ [AT_CR])
        (by rw [split]; exact List.prefix_append _ _) whole
    constructor
    · intro inside
      exact (isText.inside _ (front.subset inside)).2.1 rfl
    · intro inside
      exact (isText.inside _ (front.subset inside)).2.2 rfl
  · rintro ⟨noCr, noLf⟩ ending inside
    refine ⟨.text (cString (row.bytes cfg)), ?_, ?_, ?_⟩
    · refine (taken _ _).mpr ⟨ending, rfl, ?_, lineEnds_end ending inside⟩
      refine { inside := ?_, some_ := List.length_pos_iff.mpr some_,
               short := by omega }
      intro char inText
      refine ⟨?_, ?_, ?_⟩
      · rintro rfl
        exact noSeparator inText
      · rintro rfl
        exact noCr inText
      · rintro rfl
        exact noLf inText
    · exact verified_other row member (by rw [type]; decide) _
    · have once : cString (cString (row.bytes cfg)) =
          cString (row.bytes cfg) := by
        unfold cString
        rw [List.takeWhile_takeWhile]
        simp
      simp only [type, atSetValue, once]
      unfold AtVarDescriptor.bytes at ends ⊢
      rw [copy_same cfg _ _ ends]

/-! ### All types -/

/-- Which variables come back, and with which values. -/
theorem repeats_iff (row : AtVarDescriptor) (cfg : Nat → Byte)
    (member : row ∈ atCfgTable) (writable : row.po = .rw)
    (held : Holdable row cfg) : RoundTrips row cfg ↔ Repeats row cfg := by
  unfold Repeats
  cases type : row.pt with
  | text => exact roundTrips_text row cfg member writable type held
  | hex => exact iff_of_false (roundTrips_hex row cfg member writable type) id
  | di => exact roundTrips_di row cfg member writable type
  | hi => exact iff_of_false (roundTrips_hi row cfg member writable type) id
  | ip => exact iff_of_true (roundTrips_ip row cfg member writable type) trivial

/-- The default description. -/
theorem anonymous_comesBack :
    RoundTrips (atVar "user_desc" .text .rw .userDesc none)
      (store (fun _ => 0) CfgField.userDesc.offset (charBytes "anonymous")) :=
  (repeats_iff _ _ (by simp [atCfgTable]) rfl (by decide)).mpr (by decide)

/-- A mask, an array and the integer -1 do not come back. -/
theorem printed_notTaken :
    ¬ RoundTrips (atVar "wind_off_low" .hi .rw .windOffLow none) (fun _ => 0) ∧
    ¬ RoundTrips (atVar "wifi_ssid" .hex .rw .wifiSsid none) (fun _ => 0) ∧
    ¬ RoundTrips (atVar "wifi_channelnum" .di .rw .wifiChannelnum none)
      (fun _ => 0xff) := by
  refine ⟨?_, ?_, ?_⟩
  · exact roundTrips_hi _ _ (by simp [atCfgTable]) rfl rfl
  · exact roundTrips_hex _ _ (by simp [atCfgTable]) rfl rfl
  · rw [roundTrips_di _ _ (by simp [atCfgTable]) rfl rfl]
    decide

end XR872.AtCmd
