/-
Numbered items that arrive in any order.

Of the items with one number the first one to arrive is kept. How many of the
numbers below a bound have been seen is a count that a new number raises by one,
and the count reaches the bound exactly when none is missing.
-/

import Mathlib

namespace XR872.Collects

/-! ### The first of each number -/

section First

variable {ι : Type} (number : ι → Nat)

/-- The first item of the number. -/
def first (items : List ι) (place : Nat) : Option ι :=
  items.find? fun item => number item == place

theorem first_number (items : List ι) (place : Nat) (item : ι)
    (found : first number items place = some item) : number item = place := by
  unfold first at found
  have same : (number item == place) = true := by
    simpa using List.find?_some found
  exact eq_of_beq same

theorem first_mem (items : List ι) (place : Nat) (item : ι)
    (found : first number items place = some item) : item ∈ items :=
  List.mem_of_find?_eq_some found

theorem first_concat_old (items : List ι) (last : ι) (place : Nat) (item : ι)
    (found : first number items place = some item) :
    first number (items ++ [last]) place = some item := by
  unfold first at found ⊢
  rw [List.find?_append, found, Option.some_or]

theorem first_concat_new (items : List ι) (last : ι)
    (missing : first number items (number last) = none) :
    first number (items ++ [last]) (number last) = some last := by
  unfold first at missing ⊢
  rw [List.find?_append, missing, Option.none_or, List.find?_singleton,
    beq_self_eq_true, if_pos rfl]

theorem first_concat_other (items : List ι) (last : ι) (place : Nat)
    (other : place ≠ number last) :
    first number (items ++ [last]) place = first number items place := by
  have apart : (number last == place) = false := beq_false_of_ne (Ne.symm other)
  unfold first
  rw [List.find?_append, List.find?_singleton, apart, if_neg Bool.false_ne_true,
    Option.or_none]

end First

/-! ### How many are there -/

/-- How many of the numbers below the bound are marked. -/
def count (has : Nat → Bool) (bound : Nat) : Nat := (List.range bound).countP has

theorem count_le (has : Nat → Bool) (bound : Nat) : count has bound ≤ bound := by
  have most : count has bound ≤ (List.range bound).length := List.countP_le_length
  rwa [List.length_range] at most

theorem count_succ (has : Nat → Bool) (bound : Nat) :
    count has (bound + 1) = count has bound + (has bound).toNat := by
  unfold count
  rw [List.range_succ, List.countP_append, List.countP_singleton]
  cases has bound <;> rfl

theorem count_congr (left right : Nat → Bool) (bound : Nat)
    (same : ∀ place, place < bound → left place = right place) :
    count left bound = count right bound := by
  apply List.countP_congr
  intro place member
  rw [same place (List.mem_range.mp member)]

theorem count_eq_iff (has : Nat → Bool) (bound : Nat) :
    count has bound = bound ↔ ∀ place, place < bound → has place = true := by
  have all : count has bound = (List.range bound).length ↔
      ∀ place ∈ List.range bound, has place = true := List.countP_eq_length
  rw [List.length_range] at all
  rw [all]
  constructor
  · intro every place below
    exact every place (List.mem_range.mpr below)
  · intro every place member
    exact every place (List.mem_range.mp member)

theorem count_update (has : Nat → Bool) (place bound : Nat)
    (below : place < bound) (new : has place = false) :
    count (Function.update has place true) bound = count has bound + 1 := by
  induction bound with
  | zero => exact absurd below (Nat.not_lt_zero place)
  | succ bound ih =>
      rw [count_succ, count_succ]
      by_cases last : place = bound
      · subst last
        have before : count (Function.update has place true) place =
            count has place := by
          apply count_congr
          intro other under
          exact Function.update_of_ne (Nat.ne_of_lt under) _ _
        rw [before, Function.update_self, new]
        rfl
      · rw [ih (by omega), Function.update_of_ne (Ne.symm last)]
        omega

end XR872.Collects
