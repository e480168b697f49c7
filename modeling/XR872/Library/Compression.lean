/-
Compressed texts.

A text is spelled by literals and repetitions of what came before. A repetition
copies one value after the other from a fixed distance, so it may overlap what it
writes.

A range decoder shrinks its range and refills it from the input when it is below
the top. How far it can still shrink is bounded by the range together with the
input that is there.
-/

import Mathlib

namespace XR872.Lz77

variable {α : Type}

def back (history : List α) (dist : Nat) : Option α :=
  history.reverse[dist]?

def copy (dist : Nat) : Nat → List α → List α
  | 0, history => history
  | count + 1, history =>
      copy dist count (history ++ (back history dist).toList)

inductive Symbol (α : Type)
  | literal (value : α)
  | match_ (len dist : Nat)

/-- The text behind a history, if no distance goes beyond the history or the
window. -/
def expand (window : Nat) : List α → List (Symbol α) → Option (List α)
  | history, [] => some history
  | history, .literal value :: rest => expand window (history ++ [value]) rest
  | history, .match_ len dist :: rest =>
      if dist < min history.length window then
        expand window (copy dist len history) rest
      else none

theorem expand_append (window : Nat) (history : List α)
    (first second : List (Symbol α)) :
    expand window history (first ++ second) =
      (expand window history first).bind fun middle =>
        expand window middle second := by
  induction first generalizing history with
  | nil => rfl
  | cons symbol first ih =>
      cases symbol with
      | literal value => exact ih (history ++ [value])
      | match_ len dist =>
          rw [List.cons_append, expand, expand]
          split
          · exact ih (copy dist len history)
          · rfl

theorem back_of_lt (history : List α) (dist : Nat)
    (within : dist < history.length) :
    back history dist = history[history.length - 1 - dist]? := by
  rw [back, List.getElem?_reverse within]

theorem back_isSome (history : List α) (dist : Nat)
    (within : dist < history.length) : ∃ value, back history dist = some value := by
  rw [back]
  have inside : dist < history.reverse.length := by
    rw [List.length_reverse]
    exact within
  exact ⟨_, List.getElem?_eq_getElem inside⟩

theorem copy_add (dist first second : Nat) (history : List α) :
    copy dist (first + second) history =
      copy dist second (copy dist first history) := by
  induction first generalizing history with
  | zero => rw [Nat.zero_add, copy]
  | succ first ih => rw [Nat.succ_add, copy, copy, ih]

theorem length_copy (dist count : Nat) (history : List α)
    (within : dist < history.length) :
    (copy dist count history).length = history.length + count := by
  induction count generalizing history with
  | zero => rfl
  | succ count ih =>
      obtain ⟨value, found⟩ := back_isSome history dist within
      rw [copy, found, Option.toList_some, ih]
      · rw [List.length_append, List.length_singleton]
        omega
      · rw [List.length_append, List.length_singleton]
        omega

theorem prefix_copy (dist count : Nat) (history : List α) :
    history <+: copy dist count history := by
  induction count generalizing history with
  | zero => exact List.prefix_rfl
  | succ count ih =>
      exact (List.prefix_append _ _).trans (ih _)

end XR872.Lz77

namespace XR872.RangeBudget

/-- The range can be shrunk by the loss, refilled as often as there is input,
and is then at the top. -/
def Enough (top radix : Nat) (loss : ℚ) (range available : Nat) : Prop :=
  loss * top ≤ range * (radix : ℚ) ^ available

variable {top radix range available : Nat} {loss : ℚ}

theorem Enough.mono {less : ℚ} (enough : Enough top radix loss range available)
    (smaller : less ≤ loss) : Enough top radix less range available := by
  have scaled : less * top ≤ loss * top :=
    mul_le_mul_of_nonneg_right smaller (Nat.cast_nonneg top)
  exact scaled.trans enough

theorem Enough.available_pos (enough : Enough top radix loss range available)
    (whole : 1 ≤ loss) (low : range < top) : 0 < available := by
  by_contra none_left
  have empty : available = 0 := Nat.eq_zero_of_not_pos none_left
  rw [empty, Enough, pow_zero, mul_one] at enough
  have low' : (range : ℚ) < top := Nat.cast_lt.mpr low
  have top_le : (top : ℚ) ≤ loss * top :=
    le_mul_of_one_le_left (Nat.cast_nonneg top) whole
  linarith

theorem Enough.refill
    (enough : Enough top radix loss range (available + 1)) :
    Enough top radix loss (range * radix) available := by
  have moved : (range : ℚ) * (radix : ℚ) ^ (available + 1) =
      ((range * radix : Nat) : ℚ) * (radix : ℚ) ^ available := by
    rw [pow_succ', Nat.cast_mul, mul_assoc]
  rw [Enough, moved] at enough
  exact enough

theorem Enough.shrink {factor : ℚ} {after : Nat}
    (enough : Enough top radix (factor * loss) range available)
    (positive : 0 < factor) (shrunk : (range : ℚ) ≤ factor * after) :
    Enough top radix loss after available := by
  have power : (0 : ℚ) ≤ (radix : ℚ) ^ available := by positivity
  have scaled := mul_le_mul_of_nonneg_right shrunk power
  have both : factor * (loss * top) ≤
      factor * (after * (radix : ℚ) ^ available) := by
    rw [Enough] at enough
    linarith
  exact le_of_mul_le_mul_left both positive

end XR872.RangeBudget
