/-
Tables of slots, searched by an index loop.

What a table weighs is the sum over its slots; a slot written anew changes it
by the difference. Places apart from each other in a bounded space are together
no larger than the space. A list of items, taken from their place or replaced,
is weighed the same way.
-/

import Mathlib

namespace XR872.Slots

open Finset

section

variable {α : Type} (found : α → Bool) (table : Nat → α)

def search : Nat → Nat → Option Nat
  | 0, _ => none
  | turns + 1, index =>
      if found (table index) then some index else search turns (index + 1)

variable {found table}

theorem search_eq_some {turns start index : Nat}
    (result : search found table turns start = some index) :
    start ≤ index ∧ index < start + turns ∧ found (table index) = true ∧
      ∀ before, start ≤ before → before < index →
        found (table before) = false := by
  induction turns generalizing start with
  | zero => cases result
  | succ turns ih =>
      rw [search] at result
      by_cases here : found (table start) = true
      · rw [if_pos here] at result
        cases result
        refine ⟨Nat.le_refl _, by omega, here, ?_⟩
        intro before from_ below
        omega
      · rw [if_neg here] at result
        obtain ⟨from_, below, isFound, others⟩ := ih result
        refine ⟨by omega, by omega, isFound, ?_⟩
        intro before start_le less
        by_cases first : before = start
        · rw [first]
          exact Bool.eq_false_iff.mpr here
        · exact others before (by omega) less

theorem search_eq_none {turns start : Nat}
    (result : search found table turns start = none) (index : Nat)
    (from_ : start ≤ index) (below : index < start + turns) :
    found (table index) = false := by
  induction turns generalizing start with
  | zero => omega
  | succ turns ih =>
      rw [search] at result
      by_cases here : found (table start) = true
      · rw [if_pos here] at result
        cases result
      · rw [if_neg here] at result
        by_cases first : index = start
        · rw [first]
          exact Bool.eq_false_iff.mpr here
        · exact ih result (by omega) (by omega)

end

section

variable {α : Type} (weight : α → Nat)

def total (limit : Nat) (table : Nat → α) : Nat :=
  ∑ index ∈ range limit, weight (table index)

theorem total_update {limit index : Nat} (within : index < limit)
    (table : Nat → α) (slot : α) :
    total weight limit (Function.update table index slot) +
        weight (table index) =
      total weight limit table + weight slot := by
  have member := mem_range.mpr within
  unfold total
  rw [← add_sum_erase _ _ member,
    ← add_sum_erase _ (fun index => weight (table index)) member,
    Function.update_self]
  have others : ∑ other ∈ (range limit).erase index,
      weight (Function.update table index slot other) =
      ∑ other ∈ (range limit).erase index, weight (table other) := by
    apply sum_congr rfl
    intro other isOther
    rw [Function.update_of_ne (ne_of_mem_erase isOther)]
  rw [others]
  omega

end

theorem sum_le_of_apart {ι : Type} (members : Finset ι) (start size : ι → Nat)
    (space : Nat)
    (inside : ∀ member ∈ members, start member + size member ≤ space)
    (apart : ∀ left ∈ members, ∀ right ∈ members, left ≠ right →
      start left + size left ≤ start right ∨
        start right + size right ≤ start left) :
    ∑ member ∈ members, size member ≤ space := by
  classical
  have disjoint : (members : Set ι).PairwiseDisjoint
      fun member => Ico (start member) (start member + size member) := by
    intro left isLeft right isRight differ
    rw [Function.onFun, disjoint_left]
    intro place inLeft inRight
    rw [mem_Ico] at inLeft inRight
    rcases apart left isLeft right isRight differ with before | behind
    · omega
    · omega
  calc ∑ member ∈ members, size member
      = ∑ member ∈ members,
          (Ico (start member) (start member + size member)).card := by
        apply sum_congr rfl
        intro member _
        rw [Nat.card_Ico, Nat.add_sub_cancel_left]
    _ = (members.biUnion fun member =>
          Ico (start member) (start member + size member)).card :=
        (card_biUnion disjoint).symm
    _ ≤ (range space).card := by
        apply card_le_card
        intro place isPlace
        obtain ⟨member, isMember, within⟩ := mem_biUnion.mp isPlace
        have fits := inside member isMember
        rw [mem_Ico] at within
        exact mem_range.mpr (by omega)
    _ = space := card_range space

end XR872.Slots

namespace XR872.Ledgers

variable {α : Type} (weight : α → Nat)

def total (items : List α) : Nat := (items.map weight).sum

@[simp] theorem total_nil : total weight [] = 0 := rfl

theorem total_append (first second : List α) :
    total weight (first ++ second) =
      total weight first + total weight second := by
  unfold total
  rw [List.map_append, List.sum_append]

theorem total_concat (items : List α) (last : α) :
    total weight (items ++ [last]) = total weight items + weight last := by
  rw [total_append]
  unfold total
  rw [List.map_singleton, List.sum_singleton]

theorem total_taken (items : List α) (place : Nat) (item : α)
    (here : items[place]? = some item) :
    total weight (items.eraseIdx place) + weight item = total weight items := by
  obtain ⟨inside, same⟩ := List.getElem?_eq_some_iff.mp here
  have split := (List.getElem_cons_eraseIdx_perm inside).map weight
  have sums := split.sum_eq
  rw [List.map_cons, List.sum_cons, same] at sums
  unfold total
  omega

theorem total_replaced (items : List α) (place : Nat) (old new : α)
    (here : items[place]? = some old) (same : weight new = weight old) :
    total weight (items.set place new) = total weight items := by
  obtain ⟨inside, found⟩ := List.getElem?_eq_some_iff.mp here
  unfold total
  rw [List.map_set, same]
  congr 1
  have mappedInside : place < (items.map weight).length := by
    rw [List.length_map]
    exact inside
  have mapped : weight old = (items.map weight)[place] := by
    rw [List.getElem_map, found]
  rw [mapped, List.set_getElem_self]

theorem total_le_of_imp (heavier : α → Nat) (items : List α)
    (le : ∀ item, weight item ≤ heavier item) :
    total weight items ≤ total heavier items :=
  List.sum_le_sum fun item _ => le item

end XR872.Ledgers
