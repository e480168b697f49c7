/-
The Gregorian calendar.

Spans of given lengths lie one after the other; a point falls into one of them,
at some place. Years divide the days from a first year on so, and the months
divide a year.
-/

import Mathlib

namespace XR872.Calendars

/-! ### Spans -/

section Spans

variable (length : Nat → Nat)

def spanStart (index : Nat) : Nat := ∑ before ∈ Finset.range index, length before

def locate : Nat → Nat → Nat → Nat × Nat
  | 0, index, rest => (index, rest)
  | fuel + 1, index, rest =>
      if rest < length index then (index, rest)
      else locate fuel (index + 1) (rest - length index)

theorem spanStart_succ (index : Nat) :
    spanStart length (index + 1) = spanStart length index + length index :=
  Finset.sum_range_succ length index

theorem spanStart_le {left right : Nat} (below : left ≤ right) :
    spanStart length left ≤ spanStart length right :=
  Finset.sum_le_sum_of_subset (Finset.range_mono below)

variable {length}

theorem locate_spec (positive : ∀ index, 0 < length index) (fuel index rest : Nat)
    (enough : rest ≤ fuel) :
    spanStart length (locate length fuel index rest).1 +
        (locate length fuel index rest).2 = spanStart length index + rest ∧
      (locate length fuel index rest).2 <
        length (locate length fuel index rest).1 := by
  induction fuel generalizing index rest with
  | zero =>
      have here := positive index
      exact ⟨rfl, by change rest < length index; omega⟩
  | succ fuel ih =>
      rw [locate]
      split_ifs with inside
      · exact ⟨rfl, inside⟩
      · have here := positive index
        obtain ⟨sum, within⟩ := ih (index + 1) (rest - length index) (by omega)
        rw [spanStart_succ] at sum
        exact ⟨by omega, within⟩

end Spans

/-! ### Years and months -/

def Leap (year : Nat) : Prop :=
  year % 4 = 0 ∧ (year % 100 ≠ 0 ∨ year % 400 = 0)

instance (year : Nat) : Decidable (Leap year) :=
  inferInstanceAs (Decidable (_ ∧ _))

def yearLength (year : Nat) : Nat := if Leap year then 366 else 365

def monthLength (year month : Nat) : Nat :=
  match month with
  | 1 => if Leap year then 29 else 28
  | 3 | 5 | 8 | 10 => 30
  | _ => 31

theorem yearLength_pos (year : Nat) : 0 < yearLength year := by
  unfold yearLength
  split_ifs
  all_goals decide

theorem monthLength_pos (year month : Nat) : 0 < monthLength year month := by
  unfold monthLength
  split
  · split_ifs
    all_goals decide
  all_goals decide

theorem spanStart_months (year : Nat) :
    spanStart (monthLength year) 12 = yearLength year := by
  by_cases leap : Leap year
  · simp [spanStart, Finset.sum_range_succ, monthLength, yearLength, leap]
  · simp [spanStart, Finset.sum_range_succ, monthLength, yearLength, leap]

structure Date where
  year : Nat
  month : Nat
  day : Nat
  month_lt : month < 12
  day_lt : day < monthLength year month

def yearOf (epoch days : Nat) : Nat × Nat :=
  locate (fun index => yearLength (epoch + index)) days 0 days

theorem yearOf_spec (epoch days : Nat) :
    spanStart (fun index => yearLength (epoch + index)) (yearOf epoch days).1 +
        (yearOf epoch days).2 = days ∧
      (yearOf epoch days).2 < yearLength (epoch + (yearOf epoch days).1) := by
  have found := locate_spec (fun index => yearLength_pos (epoch + index)) days 0
    days (Nat.le_refl days)
  have start : spanStart (fun index => yearLength (epoch + index)) 0 = 0 := rfl
  rw [start, Nat.zero_add] at found
  exact found

def monthOf (year place : Nat) : Nat × Nat :=
  locate (monthLength year) place 0 place

theorem monthOf_spec (year place : Nat) :
    spanStart (monthLength year) (monthOf year place).1 +
        (monthOf year place).2 = place ∧
      (monthOf year place).2 < monthLength year (monthOf year place).1 := by
  have found := locate_spec (monthLength_pos year) place 0 place
    (Nat.le_refl place)
  have start : spanStart (monthLength year) 0 = 0 := rfl
  rw [start, Nat.zero_add] at found
  exact found

theorem monthOf_lt (year place : Nat) (within : place < yearLength year) :
    (monthOf year place).1 < 12 := by
  obtain ⟨sum, _⟩ := monthOf_spec year place
  by_contra late
  have order := spanStart_le (monthLength year) (Nat.le_of_not_lt late)
  rw [spanStart_months] at order
  omega

/-- The date that lies so many days behind the first day of `epoch`. -/
def dateOf (epoch days : Nat) : Date :=
  { year := epoch + (yearOf epoch days).1
    month := (monthOf (epoch + (yearOf epoch days).1) (yearOf epoch days).2).1
    day := (monthOf (epoch + (yearOf epoch days).1) (yearOf epoch days).2).2
    month_lt := monthOf_lt _ _ (yearOf_spec epoch days).2
    day_lt := (monthOf_spec _ _).2 }

example : (dateOf 1970 17896).day = 30 ∧ (dateOf 1970 17896).month = 11 ∧
    (dateOf 1970 17896).year = 2018 := by decide

end XR872.Calendars
