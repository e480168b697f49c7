/-
Ranges of addresses cut at the boundaries of pages.

A piece is a first address and a length. Pieces tile a range if none is empty
and each begins where the one before it ends.
-/

import Mathlib

namespace XR872.Pages

def Tiles : Nat → List (Nat × Nat) → Nat → Prop
  | start, [], stop => start = stop
  | start, piece :: rest, stop =>
      piece.1 = start ∧ 0 < piece.2 ∧ Tiles (start + piece.2) rest stop

theorem Tiles.bound {start stop : Nat} {pieces : List (Nat × Nat)}
    (tiles : Tiles start pieces stop) : start ≤ stop := by
  induction pieces generalizing start with
  | nil => exact Nat.le_of_eq tiles
  | cons piece rest ih =>
      exact Nat.le_trans (Nat.le_add_right start piece.2) (ih tiles.2.2)

theorem Tiles.start_le {start stop : Nat} {pieces : List (Nat × Nat)}
    (tiles : Tiles start pieces stop) :
    ∀ piece ∈ pieces, start ≤ piece.1 := by
  induction pieces generalizing start with
  | nil => exact fun piece there => absurd there List.not_mem_nil
  | cons first rest ih =>
      rw [List.forall_mem_cons]
      refine ⟨Nat.le_of_eq tiles.1.symm, fun piece there => ?_⟩
      exact Nat.le_trans (Nat.le_add_right start first.2)
        (ih tiles.2.2 piece there)

theorem Tiles.take {start stop : Nat} {pieces : List (Nat × Nat)}
    (tiles : Tiles start pieces stop) (count : Nat) :
    ∃ middle ≤ stop, Tiles start (pieces.take count) middle := by
  induction pieces generalizing start count with
  | nil =>
      rw [List.take_nil]
      exact ⟨start, tiles.bound, rfl⟩
  | cons piece rest ih =>
      cases count with
      | zero => exact ⟨start, tiles.bound, rfl⟩
      | succ count =>
          obtain ⟨middle, within, front⟩ := ih tiles.2.2 count
          exact ⟨middle, within, tiles.1, tiles.2.1, front⟩

/-- What stands at the addresses of the pieces, one piece after the other, is
what stands at those of the range. -/
theorem Tiles.content {α : Type} (cell : Nat → α) {start stop : Nat}
    {pieces : List (Nat × Nat)} (tiles : Tiles start pieces stop) :
    pieces.flatMap (fun piece => (List.range' piece.1 piece.2).map cell) =
      (List.range' start (stop - start)).map cell := by
  induction pieces generalizing start with
  | nil =>
      obtain rfl : start = stop := tiles
      rw [Nat.sub_self]
      rfl
  | cons piece rest ih =>
      obtain ⟨first, _, others⟩ := tiles
      have within := others.bound
      have split : stop - start = piece.2 + (stop - (start + piece.2)) := by
        omega
      rw [List.flatMap_cons, ih others, first, ← List.map_append, split,
        List.range'_append_1]

def OnePage (size : Nat) (piece : Nat × Nat) : Prop :=
  ∀ first second, piece.1 ≤ first → first < piece.1 + piece.2 →
    piece.1 ≤ second → second < piece.1 + piece.2 →
      first / size = second / size

theorem onePage_of_room {size : Nat} (address count : Nat)
    (room : count ≤ size - address % size) : OnePage size (address, count) := by
  have page : ∀ place, address ≤ place → place < address + count →
      place / size = address / size := by
    intro place from_ before
    have split := Nat.div_add_mod address size
    apply Nat.div_eq_of_lt_le
    · rw [Nat.mul_comm]
      omega
    · rw [Nat.succ_mul, Nat.mul_comm]
      omega
  intro first second from_ before fromToo beforeToo
  rw [page first from_ before, page second fromToo beforeToo]

def pages (size address left : Nat) : List (Nat × Nat) :=
  if 0 < size ∧ 0 < left then
    (address, min left (size - address % size)) ::
      pages size (address + min left (size - address % size))
        (left - min left (size - address % size))
  else []
termination_by left
decreasing_by
  have room := Nat.mod_lt address ‹0 < size ∧ 0 < left›.1
  omega

variable {size : Nat}

@[simp] theorem pages_none (address : Nat) : pages size address 0 = [] := by
  rw [pages, if_neg fun some => absurd some.2 (Nat.lt_irrefl 0)]

section

variable (paged : 0 < size)

include paged

theorem pages_some (address : Nat) {left : Nat} (some : 0 < left) :
    pages size address left =
      (address, min left (size - address % size)) ::
        pages size (address + min left (size - address % size))
          (left - min left (size - address % size)) := by
  rw [pages, if_pos ⟨paged, some⟩]

theorem piece_some (address : Nat) {left : Nat} (some : 0 < left) :
    0 < min left (size - address % size) := by
  have room := Nat.mod_lt address paged
  omega

theorem tiles_pages (address left : Nat) :
    Tiles address (pages size address left) (address + left) := by
  induction left using Nat.strong_induction_on generalizing address with
  | h left ih =>
      rcases Nat.eq_zero_or_pos left with rfl | some
      · rw [pages_none]
        rfl
      · have piece := piece_some paged address some
        rw [pages_some paged address some]
        refine ⟨rfl, piece, ?_⟩
        have rest := ih (left - min left (size - address % size)) (by omega)
          (address + min left (size - address % size))
        have stop : address + min left (size - address % size) +
            (left - min left (size - address % size)) = address + left := by
          omega
        rwa [stop] at rest

theorem onePage_pages (address left : Nat) :
    ∀ piece ∈ pages size address left, OnePage size piece := by
  induction left using Nat.strong_induction_on generalizing address with
  | h left ih =>
      rcases Nat.eq_zero_or_pos left with rfl | some
      · rw [pages_none]
        exact fun piece there => absurd there List.not_mem_nil
      · have piece := piece_some paged address some
        rw [pages_some paged address some, List.forall_mem_cons]
        exact ⟨onePage_of_room address _ (Nat.min_le_right _ _),
          ih _ (by omega) _⟩

end

end XR872.Pages
