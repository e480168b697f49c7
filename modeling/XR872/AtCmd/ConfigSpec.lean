/-
What the configuration commands take from a line.

A line that sets a variable is an equals sign, the key, a separator, and a
parameter of the type of the variable.
-/

import XR872.AtCmd.Config
import XR872.AtCmd.ParameterSpec

namespace XR872.AtCmd

open BitView
open Memories

/-! ### The table -/

theorem keys_nodup : (atCfgTable.map AtVarDescriptor.key).Nodup := by decide

theorem keys_plain : ∀ row ∈ atCfgTable,
    (∀ char ∈ row.key, Inside char) ∧ 0 < row.key.length ∧
      row.key.length < AT_PARA_MAX_SIZE ∧ cString row.key = row.key := by
  -- As a function the check goes over the characters of a key; as a
  -- quantifier it would go over all bytes.
  have checked : ∀ row ∈ atCfgTable,
      (row.key.all fun char => decide (Inside char)) = true ∧
        0 < row.key.length ∧ row.key.length < AT_PARA_MAX_SIZE ∧
        cString row.key = row.key := by decide
  intro row member
  obtain ⟨inside, sized⟩ := checked row member
  exact ⟨fun char here =>
    of_decide_eq_true (List.all_eq_true.mp inside char here), sized⟩

theorem rows_typed : ∀ row ∈ atCfgTable,
    row.pvar.type = row.pt ∧ row.pvar.size = row.vsize := by decide

theorem atCfgFind_some (key : List Byte) (row : AtVarDescriptor)
    (found : atCfgFind key = some row) :
    row ∈ atCfgTable ∧ row.key = cString key := by
  have here := List.find?_some found
  exact ⟨List.mem_of_find?_eq_some found, (of_decide_eq_true here).symm⟩

theorem row_of_key (left right : AtVarDescriptor) (first : left ∈ atCfgTable)
    (second : right ∈ atCfgTable) (same : left.key = right.key) :
    left = right :=
  List.inj_on_of_nodup_map keys_nodup first second same

theorem atCfgFind_row (key : List Byte) (row : AtVarDescriptor)
    (member : row ∈ atCfgTable) (named : row.key = cString key) :
    atCfgFind key = some row := by
  cases found : atCfgFind key with
  | none =>
      have other := List.find?_eq_none.mp found row member
      exact absurd (decide_eq_true named.symm) other
  | some other =>
      obtain ⟨inside, same⟩ := atCfgFind_some key other found
      rw [row_of_key other row inside member (same.trans named.symm)]

/-! ### Arguments -/

/-- The option of the value in the list of `setcfg_handler`. -/
def valueOption : AtParaType → Nat
  | .text | .hex => AET_LINE ||| SIZE_LIMIT AT_PARA_MAX_SIZE
  | .di | .hi | .ip => AET_LINE ||| SIZE_LIMIT 4

theorem keyParameters (line para key : List Byte) :
    atGetParameters cmdKeyList line = (.ok, [.text key], para) ↔
      line = key ++ AT_SEPARATOR :: para ∧ IsText key := by
  unfold cmdKeyList
  rw [atGetParameters_single]
  simp only [getPara, Para.map]
  constructor
  · intro taken
    cases stored : (getTextPara line
        (AET_PARA ||| SIZE_LIMIT AT_PARA_MAX_SIZE)).stored with
    | none =>
        rw [stored] at taken
        cases taken
    | some text =>
        rw [stored] at taken
        cases taken
        obtain ⟨rest, endType, split, isText, asked, ends⟩ :=
          getTextPara_split line _ key (by decide) stored
        rcases paraEnd_cases _ _ _ ends with ⟨_, separator⟩ | ⟨same, _⟩
        · rw [separator] at split
          exact ⟨split, isText⟩
        · rw [same] at asked
          exact absurd (by decide) asked
  · rintro ⟨split, isText⟩
    obtain ⟨stored, left⟩ := getTextPara_text key (AT_SEPARATOR :: para)
      (AET_PARA ||| SIZE_LIMIT AT_PARA_MAX_SIZE) AET_PARA para isText
      (paraEnd_separator para) (by decide) (by decide)
    rw [split, stored, left]
    rfl

theorem lastText (line text : List Byte) :
    (getTextPara line (AET_LINE ||| SIZE_LIMIT AT_PARA_MAX_SIZE)).stored =
        some text ↔
      ∃ rest, line = text ++ rest ∧ IsText text ∧ EndsLine rest := by
  constructor
  · intro stored
    obtain ⟨rest, endType, split, isText, asked, ends⟩ :=
      getTextPara_split line _ text (by decide) stored
    rcases paraEnd_cases _ _ _ ends with ⟨same, _⟩ | ⟨_, ending⟩
    · rw [same] at asked
      exact absurd (by decide) asked
    · exact ⟨rest, split, isText, ending⟩
  · rintro ⟨rest, split, isText, ending⟩
    obtain ⟨para, ends⟩ := paraEnd_line rest ending
    rw [split]
    exact (getTextPara_text text rest _ AET_LINE para isText ends (by decide)
      (by decide)).1

theorem valueDescriptor (key : List Byte) (row : AtVarDescriptor)
    (found : atCfgFind key = some row) :
    (cmdValueList.find? fun descriptor =>
        decide (some descriptor.pt = atTypecfg key)) =
      some { pt := row.pt, option := valueOption row.pt } := by
  unfold atTypecfg
  rw [found, Option.map_some]
  cases row.pt <;> rfl

theorem setcfgArguments_ok (ptr key : List Byte) (value : AtValue) :
    setcfgArguments ptr = .ok (key, value) ↔
      ∃ rest row, ptr = AT_EQU :: (key ++ AT_SEPARATOR :: rest) ∧ IsText key ∧
        atCfgFind key = some row ∧
        (getPara row.pt (valueOption row.pt) rest).stored = some value := by
  constructor
  · intro taken
    cases ptr with
    | nil => cases taken
    | cons char line =>
        simp only [setcfgArguments] at taken
        by_cases equals : char = AT_EQU
        · rw [if_neg (not_not.mpr equals)] at taken
          split at taken
          · rename_i first rest keyed
            obtain ⟨split_, isText⟩ := (keyParameters line rest first).mp keyed
            cases found : atCfgFind first with
            | none =>
                unfold atTypecfg at taken
                rw [found] at taken
                cases taken
            | some row =>
                rw [valueDescriptor first row found] at taken
                simp only [atGetParameters_single] at taken
                cases stored : (getPara row.pt (valueOption row.pt) rest).stored
                  with
                | none =>
                    rw [stored] at taken
                    cases taken
                | some other =>
                    rw [stored] at taken
                    cases taken
                    exact ⟨rest, row, by rw [equals, split_], isText, found,
                      stored⟩
          · cases taken
        · rw [if_pos equals] at taken
          cases taken
  · rintro ⟨rest, row, split, isText, found, stored⟩
    have keyed := (keyParameters (key ++ AT_SEPARATOR :: rest) rest key).mpr
      ⟨rfl, isText⟩
    rw [split]
    simp only [setcfgArguments, ne_eq, not_true_eq_false, if_false, keyed,
      valueDescriptor key row found, atGetParameters_single, stored]

/-- What is done with a key and a value that were taken from a line. -/
theorem setcfgHandler_taken (cfg : Nat → Byte) (ptr key : List Byte)
    (value : AtValue) (row : AtVarDescriptor)
    (taken : setcfgArguments ptr = .ok (key, value))
    (found : atCfgFind key = some row) :
    setcfgHandler cfg ptr =
      if row.po ≠ .rw then (.readOnly, cfg)
      else if row.verified value then
        (.ok, atSetValue row.pt cfg row.pvar.offset row.vsize value)
      else (.outOfRange, cfg) := by
  simp only [setcfgHandler, taken, atSetcfg, found]

theorem ssidtxtArguments_ok (ptr ssid : List Byte) :
    ssidtxtArguments ptr = .ok ssid ↔
      ∃ rest, ptr = AT_EQU :: (ssid ++ rest) ∧ IsText ssid ∧
        EndsLine rest := by
  cases ptr with
  | nil => exact iff_of_false (fun same => nomatch same) fun ⟨_, split, _⟩ =>
      nomatch split
  | cons char line =>
      simp only [ssidtxtArguments, atGetParameters_single, getPara, Para.map]
      by_cases equals : char = AT_EQU
      · rw [if_neg (not_not.mpr equals), equals]
        simp only [List.cons.injEq, true_and]
        rw [← lastText]
        cases (getTextPara line
            (AET_LINE ||| SIZE_LIMIT AT_PARA_MAX_SIZE)).stored with
        | none => exact iff_of_false (fun same => nomatch same) fun same =>
            nomatch same
        | some text =>
            simp only [Option.map_some, Option.some.injEq, Except.ok.injEq]
      · rw [if_pos equals]
        refine iff_of_false (fun same => nomatch same) ?_
        rintro ⟨rest, split, _⟩
        exact equals (List.cons.inj split).1

end XR872.AtCmd
