/-
A whole list of parameters against its grammar.

The list takes one field after the other, each from where the one before it has
left the cursor. As long as every field is one that its function takes by the
grammar, the list is read as the grammar reads it.
-/

import XR872.AtCmd.GrammarIp
import XR872.AtCmd.GrammarHex

namespace XR872.AtCmd

open BitView

def FieldFine (pt : AtParaType) (opt : Nat) (cursor : List Byte) : Prop :=
  match pt with
  | .text => TextFits opt cursor
  | .hex =>
      (¬ ∃ value endType para, Matches .hex opt cursor value endType para) ∧
        HexFits opt cursor
  | .di => ¬ DiOverlong opt cursor
  | .hi => ¬ HiOverlong opt cursor
  | .ip => True

/-- Every field that the grammar of the list gets to is such a field. -/
def ListFine : List AtParaDescriptor → List Byte → Prop
  | [], _ => True
  | descriptor :: rest, cursor =>
      FieldFine descriptor.pt descriptor.option cursor ∧
        ∀ value endType para, Matches descriptor.pt descriptor.option cursor
            value endType para → endType ≠ AET_LINE → ListFine rest para

theorem fieldPromise_iff (pt : AtParaType) (opt : Nat) (cursor : List Byte)
    (line : afterLine cursor ≠ []) :
    FieldPromise pt opt cursor ↔ FieldFine pt opt cursor := by
  cases pt with
  | text => exact textPromise_iff opt cursor
  | hex => exact hexPromise_iff opt cursor line
  | di => exact diPromise_iff opt cursor
  | hi => exact hiPromise_iff opt cursor
  | ip => exact iff_of_true (ipPromise opt cursor) trivial

theorem matches_of_stored {pt : AtParaType} {opt : Nat} {cursor : List Byte}
    (promise : FieldPromise pt opt cursor) (value : AtValue)
    (stored : (getPara pt opt cursor).stored = some value) :
    ∃ endType, Matches pt opt cursor value endType (getPara pt opt cursor).para ∧
      (getPara pt opt cursor).lineOver = decide (endType = AET_LINE) := by
  by_cases found : ∃ value endType para, Matches pt opt cursor value endType para
  · obtain ⟨other, endType, para, matched⟩ := found
    have taken := promise.taken other endType para matched
    rw [taken] at stored ⊢
    cases stored
    exact ⟨endType, matched, rfl⟩
  · rw [promise.refused found] at stored
    cases stored

/-- A list of parameters is handled as promised exactly if every field that its
grammar gets to is. The line has an end, and the buffer goes on behind it. -/
theorem listPromise_iff (list : List AtParaDescriptor) (line : List Byte)
    (ended : afterLine line ≠ []) :
    ListPromise list line ↔ ListFine list line := by
  induction list generalizing line with
  | nil => exact Iff.rfl
  | cons descriptor rest ih =>
      have field := fieldPromise_iff descriptor.pt descriptor.option line ended
      rw [ListPromise, ListFine]
      constructor
      · rintro ⟨promise, later⟩
        refine ⟨field.mp promise, ?_⟩
        intro value endType para found noLine
        have taken := promise.taken value endType para found
        obtain ⟨_, _, ends, _, goesOn⟩ := paraEnd_of_line line ended
        rw [found.ends] at ends
        cases ends
        rw [taken] at later
        exact (ih para (goesOn noLine)).mp
          (later value rfl (decide_eq_false noLine))
      · rintro ⟨fine, later⟩
        have promise := field.mpr fine
        refine ⟨promise, ?_⟩
        intro value stored open_
        obtain ⟨endType, found, over_⟩ := matches_of_stored promise value stored
        have noLine : endType ≠ AET_LINE := by
          rw [open_] at over_
          exact of_decide_eq_false over_.symm
        obtain ⟨_, _, ends, _, goesOn⟩ := paraEnd_of_line line ended
        rw [found.ends] at ends
        cases ends
        exact (ih _ (goesOn noLine)).mpr
          (later value endType _ found noLine)

def byteAndNumber : List AtParaDescriptor :=
  [{ pt := .hex, option := AET_PARA ||| 1 }, { pt := .di, option := AET_LINE }]

/-- `AB,42` with its line end, in a string. -/
def byteAndNumberLine : List Byte :=
  [0x41, 0x42, 0x2c, 0x34, 0x32, 0x0d, 0x0a, 0]

/-- Of the number behind the byte, the first digit is lost. -/
theorem listPromise_skips :
    atGetParameters byteAndNumber byteAndNumberLine =
        (.ok, [.hex [0xab], .di 2], [0]) ∧
      ¬ ∀ list line, afterLine line ≠ [] → ListPromise list line := by
  refine ⟨by decide, ?_⟩
  intro all
  obtain ⟨field, _⟩ := all byteAndNumber byteAndNumberLine (by decide)
  have taken := field.taken (.hex [0xab]) AET_PARA [0x34, 0x32, 0x0d, 0x0a, 0] {
    denotes := Denotes.hex [0x41, 0x42] (by decide) (by decide) rfl
      (Nat.le_refl 1)
    ends := rfl
    allowed := by decide }
  exact absurd taken (by decide)

/-- A text and an address are read as promised. -/
theorem listPromise_iff_address :
    ListPromise
        [{ pt := .text, option := AET_PARA ||| 32 },
          { pt := .ip, option := AET_LINE }]
        [0x61, 0x70, 0x2c, 0x31, 0x2e, 0x30, 0x2e, 0x30, 0x2e, 0x37, 0x0d, 0x0a,
          0] := by
  refine (listPromise_iff _ _ (by decide)).mpr ⟨Or.inl (by decide), ?_⟩
  intro value endType para found noLine
  exact ⟨trivial, fun _ _ _ _ _ => trivial⟩

end XR872.AtCmd
