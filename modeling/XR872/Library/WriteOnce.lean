/-
Write-once bit arrays with stuck cells.

Programming a window raises the requested cells that are able to rise and
lowers none. Whether a value survives being programmed is a question about the
cells alone: what they held before and which of them are stuck.
-/

import XR872.Library.BitView

namespace XR872.WriteOnce

open XR872.BitView

variable {n : Nat}

/-- Program the cells `[start, start + num)` with the leading bits of `data`. -/
def program (cells stuck : BitVec n) (start num : Nat)
    (data : List Byte) : BitVec n :=
  cells ||| (((ofBytes num data).setWidth n <<< start) &&& ~~~stuck)

theorem getLsbD_program (cells stuck : BitVec n) (start num : Nat)
    (data : List Byte) (cell : Nat) (inside : cell < n) :
    (program cells stuck start num data).getLsbD cell =
      (cells.getLsbD cell ||
        (decide (start ≤ cell) && decide (cell < start + num) &&
          bitAt data (cell - start) && !stuck.getLsbD cell)) := by
  have offset : cell - start < n := by omega
  rw [program, BitVec.getLsbD_or, BitVec.getLsbD_and,
    BitVec.getLsbD_shiftLeft, BitVec.getLsbD_setWidth, getLsbD_ofBytes]
  by_cases reached : start ≤ cell
  · have sameEnd : cell - start < num ↔ cell < start + num := by omega
    have notShifted : ¬ cell < start := by omega
    simp [inside, reached, notShifted, offset, sameEnd]
  · have before : cell < start := by omega
    simp [reached, before]

theorem program_outside (cells stuck : BitVec n) (start num : Nat)
    (data : List Byte) (cell : Nat)
    (outside : cell < start ∨ start + num ≤ cell) :
    (program cells stuck start num data).getLsbD cell = cells.getLsbD cell := by
  by_cases inside : cell < n
  · rw [getLsbD_program _ _ _ _ _ _ inside]
    rcases outside with before | after
    · have notReached : ¬ start ≤ cell := by omega
      simp [notReached]
    · have past : ¬ cell < start + num := by omega
      simp [past]
  · rw [BitVec.getLsbD_of_ge _ _ (by omega), BitVec.getLsbD_of_ge _ _ (by omega)]

theorem program_window (cells stuck : BitVec n) (start num : Nat)
    (data : List Byte) (j : Nat) (within : j < num) (fits : start + num ≤ n) :
    (program cells stuck start num data).getLsbD (start + j) =
      (cells.getLsbD (start + j) ||
        (bitAt data j && !stuck.getLsbD (start + j))) := by
  have inside : start + j < n := by omega
  have reached : start ≤ start + j := by omega
  have before : start + j < start + num := by omega
  have offset : start + j - start = j := by omega
  rw [getLsbD_program _ _ _ _ _ _ inside, offset]
  simp [reached, before]

/-- The window reads as `data`. -/
def Holds (cells : BitVec n) (start num : Nat) (data : List Byte) : Prop :=
  ∀ j < num, cells.getLsbD (start + j) = bitAt data j

/-- Programming `data` into the window leaves exactly `data` there: no cell that
must stay low is already high, and none that must rise is stuck low. -/
def Takes (cells stuck : BitVec n) (start num : Nat)
    (data : List Byte) : Prop :=
  ∀ j < num,
    (cells.getLsbD (start + j) ||
      (bitAt data j && !stuck.getLsbD (start + j))) = bitAt data j

instance (cells : BitVec n) (start num : Nat) (data : List Byte) :
    Decidable (Holds cells start num data) :=
  inferInstanceAs (Decidable (∀ j < num, _))

instance (cells stuck : BitVec n) (start num : Nat) (data : List Byte) :
    Decidable (Takes cells stuck start num data) :=
  inferInstanceAs (Decidable (∀ j < num, _))

theorem holds_program_iff_takes (cells stuck : BitVec n) (start num : Nat)
    (data : List Byte) (fits : start + num ≤ n) :
    Holds (program cells stuck start num data) start num data ↔
      Takes cells stuck start num data := by
  constructor
  · intro holds j within
    rw [← program_window cells stuck start num data j within fits]
    exact holds j within
  · intro takes j within
    rw [program_window cells stuck start num data j within fits]
    exact takes j within

theorem holds_congr (left right : BitVec n) (start num : Nat)
    (data : List Byte)
    (same : ∀ j < num, left.getLsbD (start + j) = right.getLsbD (start + j)) :
    Holds left start num data ↔ Holds right start num data := by
  constructor
  · intro holds j within
    rw [← same j within]
    exact holds j within
  · intro holds j within
    rw [same j within]
    exact holds j within

theorem takes_congr (left right stuck : BitVec n) (start num : Nat)
    (data : List Byte)
    (same : ∀ j < num, left.getLsbD (start + j) = right.getLsbD (start + j)) :
    Takes left stuck start num data ↔ Takes right stuck start num data := by
  constructor
  · intro takes j within
    rw [← same j within]
    exact takes j within
  · intro takes j within
    rw [same j within]
    exact takes j within

end XR872.WriteOnce
